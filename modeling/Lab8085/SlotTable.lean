/-
  Lab8085.SlotTable

  The order of a set of numbers. A table has more than twice as many slots as the set
  has numbers, and every number wants the slot that its hash names. Where that is taken
  the nine slots after it are tried, and then others that more of the hash names. The
  order of the set is that of the slots.
-/
import Lab8085.Value

namespace Lab8085.SlotTable

/-! ## Hashes -/

/-- Hashes are residues of this prime, one less than `2^61`. -/
def modulus : Nat := 0x1FFFFFFFFFFFFFFF

/-- The hash of `m * 2^q`, where `2^61` counts as one. The hash `-1` is not used. -/
def hashOf (negative : Bool) (m : Nat) (q : Int) : Int :=
  let h : Int := (m * Nat.pow 2 (q % 61).toNat % modulus : Nat)
  if !negative then h else if h = 1 then -2 else -h

/-- The hash of infinity. -/
def infinityHash : Int := 314159

/-- The hash of a number. Equal numbers have equal hashes, whatever their kind. -/
def hash? : Value → Option Int
  | .float x =>
    if x.isNaN then none
    else if x.isInf then some (if x < 0 then -infinityHash else infinityHash)
    else
      let (negative, m, q) := Number.significand x.toBits
      some (hashOf negative m q)
  | v => v.asInt?.map fun n => hashOf (n < 0) n.natAbs 0

/-! ## Slots -/

/-- How many slots the table of a set has: a power of two. -/
def sizeFor (count : Nat) : Nat :=
  if count < 5 then 8 else Nat.pow 2 ((2 * count).log2 + 1)

/-- How many slots after the first are tried, where they do not go beyond the table. -/
def neighbours : Nat := 9

/-- Puts an item into the first free slot of those to be tried, from `slot` on; `hash` are the bits
    that name further slots. -/
def place {α : Type} (item : α) : Nat → Nat → Nat → Array (Option α) → Array (Option α)
  | 0, _, _, table => table
  | fuel + 1, hash, slot, table =>
    let tried := if slot + neighbours < table.size then List.range' slot (neighbours + 1) else [slot]
    match tried.find? fun i => (table[i]?.getD none).isNone with
    | some i => table.setIfInBounds i (some item)
    | none =>
      let hash := hash / 32
      place item fuel hash ((5 * slot + 1 + hash) % table.size) table

/-- Adds an item with its hash. When all bits of the hash are used up, every slot has its turn. -/
def add {α : Type} (table : Array (Option α)) (item : α) (hash : Int) : Array (Option α) :=
  let bits := (hash % 0x10000000000000000).toNat
  place item (table.size + 16) bits (bits % table.size) table

/-- The items of a set in its order. What is no number has no hash that is known, and a set that
    holds it keeps the order in which it was written. -/
def arrange (items : List Value) : List Value :=
  match items.mapM hash? with
  | none => items
  | some hashes =>
    let empty : Array (Option Value) := Array.replicate (sizeFor items.length) none
    let table := (items.zip hashes).foldl (fun t p => add t p.1 p.2) empty
    table.toList.filterMap id

end Lab8085.SlotTable
