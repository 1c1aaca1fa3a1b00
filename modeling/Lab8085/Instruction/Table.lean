/-
  Lab8085.Instruction.Table

  The instruction set of the 8085 as a table, and the catalog built from it. Every
  opcode that the assembler writes and the machine executes comes from this table.
-/
import Lab8085.Instruction.Catalog

namespace Lab8085

namespace Instruction

def transferRows : List Descriptor :=
  [⟨"mov a", 0x78, .place, .move (.register .a), 1⟩,
   ⟨"mov b", 0x40, .place, .move (.register .b), 1⟩,
   ⟨"mov c", 0x48, .place, .move (.register .c), 1⟩,
   ⟨"mov d", 0x50, .place, .move (.register .d), 1⟩,
   ⟨"mov e", 0x58, .place, .move (.register .e), 1⟩,
   ⟨"mov h", 0x60, .place, .move (.register .h), 1⟩,
   ⟨"mov l", 0x68, .place, .move (.register .l), 1⟩,
   ⟨"mov m", 0x70, .register, .move .memory, 1⟩,
   ⟨"mvi a", 0x3E, .byte, .move (.register .a), 1⟩,
   ⟨"mvi b", 0x06, .byte, .move (.register .b), 1⟩,
   ⟨"mvi c", 0x0E, .byte, .move (.register .c), 1⟩,
   ⟨"mvi d", 0x16, .byte, .move (.register .d), 1⟩,
   ⟨"mvi e", 0x1E, .byte, .move (.register .e), 1⟩,
   ⟨"mvi h", 0x26, .byte, .move (.register .h), 1⟩,
   ⟨"mvi l", 0x2E, .byte, .move (.register .l), 1⟩,
   ⟨"mvi m", 0x36, .byte, .move .memory, 1⟩,
   ⟨"lxi b", 0x01, .word, .loadPair .b, 1⟩,
   ⟨"lxi d", 0x11, .word, .loadPair .d, 1⟩,
   ⟨"lxi h", 0x21, .word, .loadPair .h, 1⟩,
   ⟨"lxi sp", 0x31, .word, .loadPair .sp, 1⟩,
   ⟨"lda", 0x3A, .word, .loadA, 1⟩,
   ⟨"sta", 0x32, .word, .storeA, 1⟩,
   ⟨"lhld", 0x2A, .word, .loadHL, 1⟩,
   ⟨"shld", 0x22, .word, .storeHL, 1⟩,
   ⟨"ldax", 0x0A, .pairBD, .loadIndirect, 1⟩,
   ⟨"stax", 0x02, .pairBD, .storeIndirect, 1⟩,
   ⟨"xchg", 0xEB, .none, .exchange, 1⟩]

def stackRows : List Descriptor :=
  [⟨"push", 0xC5, .pairOrPsw, .push, 1⟩,
   ⟨"pop", 0xC1, .pairOrPsw, .pop, 1⟩,
   ⟨"xthl", 0xE3, .none, .exchangeTop, 1⟩,
   ⟨"sphl", 0xF9, .none, .stackFromHL, 1⟩]

def arithmeticRows : List Descriptor :=
  [⟨"add", 0x80, .place, .add, 1⟩,
   ⟨"adc", 0x88, .place, .addCarry, 1⟩,
   ⟨"sub", 0x90, .place, .subtract, 1⟩,
   ⟨"sbb", 0x98, .place, .subtractBorrow, 1⟩,
   ⟨"adi", 0xC6, .byte, .add, 1⟩,
   ⟨"aci", 0xCE, .byte, .addCarry, 1⟩,
   ⟨"sui", 0xD6, .byte, .subtract, 1⟩,
   ⟨"sbi", 0xDE, .byte, .subtractBorrow, 1⟩,
   ⟨"inr", 0x04, .place, .increment, 8⟩,
   ⟨"dcr", 0x05, .place, .decrement, 8⟩,
   ⟨"inx", 0x03, .pairOrSp, .incrementPair, 1⟩,
   ⟨"dcx", 0x0B, .pairOrSp, .decrementPair, 1⟩,
   ⟨"dad", 0x09, .pairOrSp, .addPair, 1⟩,
   ⟨"daa", 0x27, .none, .decimalAdjust, 1⟩]

def logicRows : List Descriptor :=
  [⟨"ana", 0xA0, .place, .and, 1⟩,
   ⟨"xra", 0xA8, .place, .xor, 1⟩,
   ⟨"ora", 0xB0, .place, .or, 1⟩,
   ⟨"cmp", 0xB8, .place, .compare, 1⟩,
   ⟨"ani", 0xE6, .byte, .and, 1⟩,
   ⟨"xri", 0xEE, .byte, .xor, 1⟩,
   ⟨"ori", 0xF6, .byte, .or, 1⟩,
   ⟨"cpi", 0xFE, .byte, .compare, 1⟩,
   ⟨"cma", 0x2F, .none, .complement, 1⟩,
   ⟨"cmc", 0x3F, .none, .complementCarry, 1⟩,
   ⟨"stc", 0x37, .none, .setCarry, 1⟩,
   ⟨"rlc", 0x07, .none, .rotateLeft, 1⟩,
   ⟨"rrc", 0x0F, .none, .rotateRight, 1⟩,
   ⟨"ral", 0x17, .none, .rotateLeftCarry, 1⟩,
   ⟨"rar", 0x1F, .none, .rotateRightCarry, 1⟩]

def branchRows : List Descriptor :=
  [⟨"jmp", 0xC3, .label, .jump .always, 1⟩,
   ⟨"jnz", 0xC2, .label, .jump (.off .z), 1⟩,
   ⟨"jz", 0xCA, .label, .jump (.on .z), 1⟩,
   ⟨"jnc", 0xD2, .label, .jump (.off .c), 1⟩,
   ⟨"jc", 0xDA, .label, .jump (.on .c), 1⟩,
   ⟨"jpo", 0xE2, .label, .jump (.off .p), 1⟩,
   ⟨"jpe", 0xEA, .label, .jump (.on .p), 1⟩,
   ⟨"jp", 0xF2, .label, .jump (.off .s), 1⟩,
   ⟨"jm", 0xFA, .label, .jump (.on .s), 1⟩,
   ⟨"pchl", 0xE9, .none, .jumpHL, 1⟩]

def subroutineRows : List Descriptor :=
  [⟨"call", 0xCD, .label, .call .always, 1⟩,
   ⟨"cnz", 0xC4, .label, .call (.off .z), 1⟩,
   ⟨"cz", 0xCC, .label, .call (.on .z), 1⟩,
   ⟨"cnc", 0xD4, .label, .call (.off .c), 1⟩,
   ⟨"cc", 0xDC, .label, .call (.on .c), 1⟩,
   ⟨"cpo", 0xE4, .label, .call (.off .p), 1⟩,
   ⟨"cpe", 0xEC, .label, .call (.on .p), 1⟩,
   ⟨"cp", 0xF4, .label, .call (.off .s), 1⟩,
   ⟨"cm", 0xFC, .label, .call (.on .s), 1⟩,
   ⟨"ret", 0xC9, .none, .ret .always, 1⟩,
   ⟨"rnz", 0xC0, .none, .ret (.off .z), 1⟩,
   ⟨"rz", 0xC8, .none, .ret (.on .z), 1⟩,
   ⟨"rnc", 0xD0, .none, .ret (.off .c), 1⟩,
   ⟨"rc", 0xD8, .none, .ret (.on .c), 1⟩,
   ⟨"rpo", 0xE0, .none, .ret (.off .p), 1⟩,
   ⟨"rpe", 0xE8, .none, .ret (.on .p), 1⟩,
   ⟨"rp", 0xF0, .none, .ret (.off .s), 1⟩,
   ⟨"rm", 0xF8, .none, .ret (.on .s), 1⟩,
   ⟨"rst", 0xC7, .index, .restart, 1⟩]

def controlRows : List Descriptor :=
  [⟨"nop", 0x00, .none, .nop, 1⟩,
   ⟨"hlt", 0x76, .none, .halt, 1⟩,
   ⟨"ei", 0xFB, .none, .enable, 1⟩,
   ⟨"di", 0xF3, .none, .disable, 1⟩,
   ⟨"rim", 0x20, .none, .readMask, 1⟩,
   ⟨"sim", 0x30, .none, .setMask, 1⟩,
   ⟨"in", 0xDB, .byte, .input, 1⟩,
   ⟨"out", 0xD3, .byte, .output, 1⟩]

/-- The whole instruction set. -/
def table : List Descriptor :=
  transferRows ++ stackRows ++ arithmeticRows ++ logicRows ++ branchRows ++ subroutineRows ++
    controlRows

end Instruction

/-- The catalog of the 8085. -/
def Catalog.standard : Catalog :=
  .ofRows Instruction.table

/-- The opcode of the halt instruction. -/
def haltOpcode : Byte := 0x76#8

end Lab8085
