/-
  Lab8085.Proofs.Config.Building

  What a machine holds that was built from a configuration.

  Building lays regions over each other: the program first, then the preloads in order.  What
  carries the induction over the regions is that an address holds the number of the last region
  over it, and what it held before where there is none (`Machine.Laid`).  Nothing but the memory
  changes on the way.  The labels of a program are its symbols as they stand, because no label of
  a source that assembles is defined twice.
-/
import Lab8085.Proofs.Assembler.Joining
import Lab8085.Proofs.Assembler.RoundTrip
import Lab8085.Proofs.Config.InitialState
import Mathlib.Data.List.Nodup

namespace Lab8085

/-! ## Regions -/

namespace Config

/-- The number that a region gives to an address. -/
def Preload.at? (p : Preload) (k : Int) : Option Int :=
  if p.address ≤ k then p.data[(k - p.address).toNat]? else none

/-- The number that the last region over an address gives to it. -/
def lastAt? (ps : List Preload) (k : Int) : Option Int :=
  ps.reverse.findSome? (·.at? k)

/-- A region gives numbers to the addresses that it covers. -/
theorem Preload.at?_isSome (p : Preload) (k : Int) :
    (p.at? k).isSome = true ↔ p.address ≤ k ∧ k < p.address + p.data.length := by
  rw [at?]
  split
  · rw [isSome_getElem?]
    omega
  · simp only [Option.isSome_none, Bool.false_eq_true, false_iff]
    omega

theorem Preload.at?_cons (address v : Int) (vs : List Int) (k : Int) :
    (Preload.mk address (v :: vs)).at? k =
      if k = address then some v else (Preload.mk (address + 1) vs).at? k := by
  simp only [at?]
  rcases Int.lt_trichotomy k address with hlt | rfl | hgt
  · rw [if_neg (by omega), if_neg (by omega), if_neg (by omega)]
  · rw [if_pos (Int.le_refl k), if_pos rfl, Int.sub_self]
    rfl
  · have hplace : (k - address).toNat = (k - (address + 1)).toNat + 1 := by omega
    rw [if_pos (by omega), if_neg (by omega), if_pos (by omega), hplace, List.getElem?_cons_succ]

/-- Nothing lies below the first address of a region. -/
theorem Preload.at?_below (p : Preload) {k : Int} (h : k < p.address) : p.at? k = none := by
  have hout : ¬(p.at? k).isSome = true := by
    rw [p.at?_isSome]
    omega
  exact Option.not_isSome_iff_eq_none.1 hout

theorem lastAt?_append (ps qs : List Preload) (k : Int) :
    lastAt? (ps ++ qs) k = (lastAt? qs k).or (lastAt? ps k) := by
  rw [lastAt?, List.reverse_append, List.findSome?_append]
  rfl

end Config

namespace Machine

open Config

/-- The number at an address, if memory is installed there. -/
def number? (m : Machine) (k : Int) : Option Int :=
  (m.peek? k).map fun b => (b.toNat : Int)

/-- Regions were laid over the memory of a machine, one after the other. -/
structure Laid (m : Machine) (ps : List Preload) (n : Machine) : Prop where
  number : ∀ k, n.number? k = (lastAt? ps k).or (m.number? k)
  size : n.size = m.size
  rest : n = { m with memory := n.memory }

theorem Laid.refl (m : Machine) : m.Laid [] m :=
  ⟨fun _ => rfl, rfl, rfl⟩

theorem Laid.trans {m₁ m₂ m₃ : Machine} {ps qs : List Preload} (h₁ : m₁.Laid ps m₂)
    (h₂ : m₂.Laid qs m₃) : m₁.Laid (ps ++ qs) m₃ := by
  refine ⟨fun k => ?_, h₂.size.trans h₁.size, ?_⟩
  · rw [h₂.number, h₁.number, lastAt?_append, Option.or_assoc]
  · rw [h₂.rest, h₁.rest]

theorem number?_put (m : Machine) (address k : Int) {v : Int} {b : Byte}
    (haddress : m.memory.has address = true) (hv : byteOfInt v = .ok b) :
    ({ m with memory := m.memory.put address.toNat b } : Machine).number? k =
      if k = address then some v else m.number? k := by
  have hb : (b.toNat : Int) = v := by
    rw [byteOfInt] at hv
    split at hv
    · cases hv
      rw [BitVec.toNat_ofInt]
      omega
    · cases hv
  rw [number?, m.peek?_put address k b haddress]
  split
  · rw [Option.map_some, hb]
  · rfl

/-- Numbers that are placed lie over the memory as one region. -/
theorem place_laid {m n : Machine} {address : Int} {vs : List Int}
    (h : m.place address vs = (n, none)) : m.Laid [⟨address, vs⟩] n := by
  induction vs generalizing m address with
  | nil =>
      cases h
      refine ⟨fun k => ?_, rfl, rfl⟩
      simp [lastAt?, Preload.at?]
  | cons v vs ih =>
      rw [place] at h
      split at h
      · next haddress =>
        cases hv : byteOfInt v with
        | error e => rw [hv] at h; cases h
        | ok b =>
            rw [hv] at h
            have hrest := ih h
            refine ⟨fun k => ?_, hrest.size.trans (Memory.size_put ..), hrest.rest⟩
            have hlast : ∀ p : Preload, lastAt? [p] k = p.at? k := fun p => by
              simp [lastAt?]
            rw [hrest.number, m.number?_put address k haddress hv, hlast, hlast,
              Preload.at?_cons]
            -- the numbers after the first lie above its address
            split
            · next hk =>
              rw [Preload.at?_below _ (by simp only; omega)]
              rfl
            · rfl
      · cases h

end Machine

/-! ## Labels -/

namespace Assembly

/-- A definition that is accepted leaves the labels distinct. -/
theorem define_distinct {d d' : Draft} {label : Option String} (h : d.define label = .ok d')
    (hd : d.names.Nodup) : d'.names.Nodup := by
  cases label with
  | none =>
      cases h
      exact hd
  | some name =>
      have hnew : name ∉ d.names := by
        intro hname
        rw [Draft.define_defined hname] at h
        cases h
      have hall : ∀ x ∈ some name, x ∉ d.names := by
        rintro x ⟨⟩
        exact hnew
      obtain ⟨d₁, hdefine, hnames, -⟩ := d.define_new hall
      cases hdefine.symm.trans h
      rw [hnames, Option.toList_some, ← List.concat_eq_append]
      exact List.Nodup.concat hnew hd

theorem addLine_distinct {limit : Number.DigitLimit} {catalog : Catalog} {number : Nat}
    {d d' : Draft} {l : List Char} (h : addLine limit catalog number d l = .ok d')
    (hd : d.names.Nodup) : d'.names.Nodup := by
  obtain ⟨line, d₁, body, -, hdefine, rfl, -⟩ := addLine_ok h
  have hd₁ : d₁.names.Nodup := define_distinct hdefine hd
  exact hd₁

theorem addLines_distinct {limit : Number.DigitLimit} {catalog : Catalog} {number : Nat}
    {d d' : Draft} {ls : List (List Char)} (h : addLines limit catalog number d ls = .ok d')
    (hd : d.names.Nodup) : d'.names.Nodup := by
  induction ls generalizing number d with
  | nil =>
      cases h
      exact hd
  | cons l ls ih =>
      obtain ⟨d₁, hline, hrest⟩ := bind_ok h
      exact ih hrest (addLine_distinct hline hd)

/-- No label of an assembled source has two addresses. -/
theorem compile_distinct {source : String} {origin : Int} {a : Assembly}
    (h : compile source origin = .ok a) : (a.symbols.map Prod.fst).Nodup := by
  obtain ⟨d, hdraft, -, -, hsymbols⟩ := compileWith_ok h
  rw [hsymbols, names_symbols]
  exact addLines_distinct hdraft List.nodup_nil

end Assembly

namespace Dictionary

variable {κ α : Type} [BEq κ] [LawfulBEq κ]

theorem insertEntry_new {k : κ} {v : α} {es : List (κ × α)} (h : k ∉ es.map Prod.fst) :
    insertEntry k v es = es ++ [(k, v)] := by
  induction es with
  | nil => rfl
  | cons e es ih =>
      rw [List.map_cons, List.mem_cons, not_or] at h
      rw [insertEntry, beq_false_of_ne (Ne.symm h.1), ih h.2]
      rfl

theorem foldl_insert_distinct {es : List (κ × α)} {d : Dictionary κ α}
    (h : (d.entries.map Prod.fst ++ es.map Prod.fst).Nodup) :
    (es.foldl (fun d e => d.insert e.1 e.2) d).entries = d.entries ++ es := by
  induction es generalizing d with
  | nil => exact (List.append_nil _).symm
  | cons e es ih =>
      have hnew : e.1 ∉ d.entries.map Prod.fst := fun hmem =>
        (List.nodup_append.1 h).2.2 _ hmem _ List.mem_cons_self rfl
      have hentries : (d.insert e.1 e.2).entries = d.entries ++ [e] := insertEntry_new hnew
      rw [List.foldl_cons, ih, hentries, List.append_assoc]
      · rfl
      · rw [hentries, List.map_append, List.append_assoc]
        exact h

/-- Entries with distinct keys are the dictionary that they make. -/
theorem entries_ofList {es : List (κ × α)} (h : (es.map Prod.fst).Nodup) :
    (ofList es).entries = es :=
  foldl_insert_distinct (d := {}) h

end Dictionary

/-! ## Memory sizes -/

namespace Machine

theorem ofSize?_some {size : Value} {m : Machine} (h : ofSize? size = some m) :
    ∃ n : Int, size.asInt? = some n ∧ 1 ≤ n ∧ n ≤ 0x10000 ∧ m = ofSize n.toNat := by
  rw [ofSize?] at h
  split at h
  · next n hn =>
    split at h
    · next hrange =>
      cases h
      exact ⟨n, hn, hrange.1, hrange.2, rfl⟩
    · cases h
  · cases h

theorem ofSize?_none {size : Value} (h : ∀ n, size.asInt? = some n → n < 1 ∨ 0x10000 < n) :
    ofSize? size = none := by
  rw [ofSize?]
  split
  · next n hn =>
    have hout := h n hn
    rw [if_neg]
    rw [maxMemory]
    omega
  · rfl

/-- New memory holds zero wherever it is installed. -/
theorem number?_ofSize {n : Nat} {k : Int} (hk : 0 ≤ k) (hn : k < n) :
    (ofSize n).number? k = some 0 := by
  have hin : k.toNat < n := by omega
  rw [number?, peek?, if_pos hk, ofSize, Memory.zeroed, Memory.get?]
  simp [hin]

end Machine

/-! ## Building -/

namespace Config

/-- The text of a program is its source, or without one the text of its file. -/
inductive SourceIs (files : Files) (p : Program) : String → Prop
  | inline {text : String} (hsource : p.source.truth = true)
      (htext : p.source.bare = .text text) : SourceIs files p text
  | file {text : String} (hsource : p.source.truth = false) (hpath : p.path.truth = true)
      (htext : files.readNamed p.path = .ok text) : SourceIs files p text

/-- A program was assembled for the address where it goes. -/
inductive Assembled (files : Files) : Option Program → Option Assembly → Prop
  | none : Assembled files none none
  | some {p : Program} {text : String} {a : Assembly} (hsource : SourceIs files p text)
      (hcompile : Assembly.compile text p.loadAddress = .ok a) : Assembled files (some p) (some a)

/-- The region of a program. -/
def image : Option Program → Option Assembly → List Preload
  | some p, some a => [⟨p.loadAddress, a.code.map fun b => (b.toNat : Int)⟩]
  | _, _ => []

/-- The machine is as a configuration asks for, and the warnings are those that are due. -/
structure Meets (files : Files) (s : System) (b : Built) : Prop where
  size : ∃ n : Int, s.memorySize.asInt? = some n ∧ 1 ≤ n ∧ n ≤ 0x10000 ∧ b.machine.size = n
  assembly : Assembled files s.program b.assembly
  /-- An address holds what the last preload over it gives, else what the program does. -/
  memory : ∀ k : Int, 0 ≤ k → k < b.machine.size → ∃ v, b.machine.peek? k = some v ∧
    (v.toNat : Int) = ((lastAt? s.memory k).or (lastAt? (image s.program b.assembly) k)).getD 0
  pc : (b.machine.state.pc.toNat : Int) = s.initial.pc % 0x10000
  sp : (b.machine.state.sp.toNat : Int) = s.initial.sp % 0x10000
  mask : (b.machine.state.mask.toNat : Int) = s.initial.mask % 0x100
  register : ∀ r, ((b.machine.state.registers.get r).toNat : Int) =
    (lastNamed? r.name s.initial.registers).getD 0 % 0x100
  flag : ∀ f, b.machine.state.flags.get f =
    ((lastNamed? f.name s.initial.flags).map Value.truth).getD false
  warnings : b.warnings =
    ((strangers (Register.all.map Register.name) s.initial.registers).map fun name =>
      "Unknown register '" ++ name ++ "' in initial_state, ignored") ++
    ((strangers (Flag.all.map Flag.name) s.initial.flags).map fun name =>
      "Unknown flag '" ++ name ++ "' in initial_state, ignored")
  log : b.machine.log = #[]
  steps : b.machine.steps = 0
  symbols : b.machine.symbols.entries =
    b.assembly.elim [] fun a => a.symbols.map fun l => (l.1, .int l.2.toNat)

theorem sourceText_is {files : Files} {p : Program} {text : String}
    (h : sourceText files p = .ok text) : SourceIs files p text := by
  rw [sourceText] at h
  split at h
  · next hsource =>
    rw [sourceOf] at h
    split at h
    · next htext =>
      cases h
      exact .inline hsource htext
    all_goals cases h
  · next hsource =>
    split at h
    · next hpath =>
      cases hread : files.readNamed p.path with
      | error e => rw [hread] at h; cases h
      | ok t =>
          rw [hread] at h
          cases h
          exact .file (Bool.not_eq_true _ ▸ hsource) hpath hread
    · cases h

theorem place_ok {m n : Machine} {address : Int} {vs : List Int}
    (h : place m address vs = .ok n) : m.place address vs = (n, none) := by
  rw [place] at h
  split at h
  · next hplace =>
    cases h
    exact hplace
  · cases h

/-- Loading a program lays its code over the memory; the symbols are its labels. -/
theorem loadProgram_laid {files : Files} {m n : Machine} {p : Option Program}
    {a : Option Assembly} (h : loadProgram files m p = .ok (n, a)) :
    Assembled files p a ∧ { m with symbols := n.symbols }.Laid (image p a) n ∧
      n.symbols = a.elim m.symbols .ofAssembly := by
  cases p with
  | none =>
      cases h
      exact ⟨.none, .refl m, rfl⟩
  | some p =>
      obtain ⟨text, htext, h⟩ := Assembly.bind_ok h
      obtain ⟨⟨m₁, a⟩, hload, h⟩ := Assembly.bind_ok h
      rw [loadSource] at hload
      cases hcompile : Assembly.compile text p.loadAddress with
      | error e => rw [hcompile] at hload; cases hload
      | ok a₁ =>
          rw [hcompile] at hload
          obtain ⟨m₂, hplace, hload⟩ := Assembly.bind_ok hload
          cases hload
          cases h
          have hlaid := Machine.place_laid (place_ok hplace)
          refine ⟨.some (sourceText_is htext) hcompile, ⟨hlaid.number, hlaid.size, ?_⟩, rfl⟩
          rw [hlaid.rest]

theorem loadAll_laid {m n : Machine} {ps : List Preload} (h : loadAll m ps = .ok n) :
    m.Laid ps n := by
  induction ps generalizing m with
  | nil =>
      cases h
      exact .refl _
  | cons p ps ih =>
      obtain ⟨m₁, hplace, hrest⟩ := Assembly.bind_ok h
      exact (Machine.place_laid (place_ok hplace)).trans (ih hrest)

theorem toNat_byte (n : Int) : ((BitVec.ofInt 8 n).toNat : Int) = n % 0x100 := by
  rw [BitVec.toNat_ofInt]
  omega

theorem toNat_word (n : Int) : ((BitVec.ofInt 16 n).toNat : Int) = n % 0x10000 := by
  rw [BitVec.toNat_ofInt]
  omega

/-- The labels of a program are its symbols as they stand, since each is there once. -/
theorem Assembled.symbols {files : Files} {p : Option Program} {a : Option Assembly}
    (h : Assembled files p a) : (a.elim {} Symbols.ofAssembly).entries =
      a.elim [] fun a => a.symbols.map fun l => (l.1, .int l.2.toNat) := by
  cases h with
  | none => rfl
  | some _ hcompile =>
      refine Dictionary.entries_ofList ?_
      rw [List.map_map]
      exact Assembly.compile_distinct hcompile

theorem build_ok {files : Files} {s : System} {b : Built} (h : build files s = .ok b) :
    Meets files s b := by
  rw [build] at h
  cases hm : Machine.ofSize? s.memorySize with
  | none => rw [hm] at h; cases h
  | some m =>
      rw [hm] at h
      obtain ⟨⟨m₁, a⟩, hprogram, h⟩ := Assembly.bind_ok h
      obtain ⟨m₂, hmemory, h⟩ := Assembly.bind_ok h
      cases h
      obtain ⟨n, hn, hpos, hmax, rfl⟩ := Machine.ofSize?_some hm
      obtain ⟨hassembled, hcode, hsymbols⟩ := loadProgram_laid hprogram
      -- the code lies over new memory, and the preloads over the code
      have hlaid := hcode.trans (loadAll_laid hmemory)
      have hsize : m₂.size = n.toNat := hlaid.size.trans (Memory.size_zeroed n.toNat)
      have hrest : m₂.log = #[] ∧ m₂.symbols = m₁.symbols := by
        rw [hlaid.rest]
        exact ⟨rfl, rfl⟩
      rw [InitialState.applyTo_eq]
      refine ⟨⟨n, hn, hpos, hmax, ?_⟩, hassembled, fun k hk hkn => ?_, ?_, ?_, ?_, fun r => ?_,
        InitialState.flag_changes s.initial, InitialState.warnings_eq s.initial, hrest.1, rfl, ?_⟩
      · have hnat : (m₂.size : Int) = n := by omega
        exact hnat
      · have hkm : k < (m₂.size : Int) := hkn
        have hzero : ({ Machine.ofSize n.toNat with symbols := m₁.symbols } : Machine).number? k =
            some 0 := Machine.number?_ofSize hk (by omega)
        have hnumber := hlaid.number k
        rw [hzero, lastAt?_append, Option.or_some] at hnumber
        obtain ⟨v, hv, hvalue⟩ := Option.map_eq_some_iff.1 hnumber
        exact ⟨v, hv, hvalue⟩
      · rw [InitialState.pc_changes, toNat_word]
      · rw [InitialState.sp_changes, toNat_word]
      · rw [InitialState.mask_changes, toNat_byte]
      · rw [InitialState.register_changes, toNat_byte]
      · rw [hrest.2, hsymbols]
        exact hassembled.symbols

end Config

end Lab8085
