/-
  Lab8085.Proofs.Bus.Store

  A bus is a store of devices.  Whatever is done to a new bus, all that is seen of it can be told
  from the history of what was done and what came of it: the ranges in the order in which they
  were registered, what was last stored at each place of each chip, and the accesses since the
  log was last taken.

  An operation either fails, and then the bus is as it was, or it does what `Does` says
  (`perform_cases`).  So `Reflects`, which ties a bus to its history, is looked at once for each
  kind of operation and holds for all sequences of them by induction.  What makes reads of a
  mapped address succeed is its part `fits`: every range has the size of its chip.
-/
import Lab8085.Bus

namespace Lab8085

/-! ## Cells -/

/-- Putting an element back where it was taken from changes nothing. -/
theorem setIfInBounds_getElem? {α : Type} {xs : Array α} {i : Nat} {x : α}
    (h : xs[i]? = some x) : xs.setIfInBounds i x = xs := by
  obtain ⟨hi, rfl⟩ := Array.getElem?_eq_some_iff.1 h
  rw [Array.setIfInBounds, dif_pos hi, Array.set_getElem_self]

namespace Memory

theorem has_iff {m : Memory} {offset : Int} : m.has offset = true ↔ 0 ≤ offset ∧ offset < m.size := by
  rw [has, Bool.and_eq_true, decide_eq_true_eq, decide_eq_true_eq]

theorem readOffset_of_has {m : Memory} {offset : Int} (h : m.has offset = true) :
    ∃ v, m.get? offset.toNat = some v ∧ m.readOffset offset = .ok v := by
  obtain ⟨hlow, hhigh⟩ := has_iff.1 h
  obtain ⟨v, hv⟩ := Option.isSome_iff_exists.1 (get?_isSome.2 (show offset.toNat < m.size by omega))
  refine ⟨v, hv, ?_⟩
  rw [readOffset, if_pos h, hv]
  rfl

theorem readOffset_put {m : Memory} {offset : Int} (h : m.has offset = true) (b : Byte) (i : Int) :
    (m.put offset.toNat b).readOffset i = if i = offset then .ok b else m.readOffset i := by
  obtain ⟨hlow, hhigh⟩ := has_iff.1 h
  have hsize : offset.toNat < m.size := by omega
  have hhas : (m.put offset.toNat b).has i = m.has i := by rw [has, has, size_put]
  rw [readOffset, readOffset, hhas, size_put, get?_put]
  by_cases hi : i = offset
  · rw [if_pos hi, hi, if_pos h, if_pos ⟨rfl, hsize⟩]
    rfl
  · rw [if_neg hi]
    by_cases hin : m.has i
    · obtain ⟨hlow', -⟩ := has_iff.1 hin
      rw [if_pos hin, if_pos hin, if_neg (by omega)]
    · rw [if_neg hin, if_neg hin]

theorem readOffset_zeroed (n : Nat) (i : Int) :
    ((zeroed n).readOffset i).toOption.getD 0 = 0 := by
  rw [readOffset]
  by_cases h : (zeroed n).has i
  · rw [if_pos h, zeroed, get?, Array.getElem?_replicate]
    split <;> rfl
  · rw [if_neg h]
    rfl

/-- A write changes the chip or fails and leaves it as it is. -/
theorem writeOffset_eq (m : Memory) (offset value : Int) :
    writeOffset offset value m =
      if m.has offset then
        if 0 ≤ value ∧ value ≤ 0xFF then .ok () (m.put offset.toNat (BitVec.ofInt 8 value))
        else .error (.notByte (.int value)) m
      else .error (.outsideChip offset m.size) m := by
  have hwrite : writeOffset offset value m =
      (if m.has offset then do
        let v ← ofExcept (byteOfInt value)
        set (m.put offset.toNat v)
      else throw (.outsideChip offset m.size) : EStateM BusError Memory Unit) m := rfl
  rw [hwrite]
  by_cases hhas : m.has offset
  · rw [if_pos hhas, if_pos hhas, byteOfInt]
    by_cases hv : 0 ≤ value ∧ value ≤ 0xFF
    · rw [if_pos hv, if_pos hv]
      rfl
    · rw [if_neg hv, if_neg hv]
      rfl
  · rw [if_neg hhas, if_neg hhas]
    rfl

end Memory

namespace Bus

/-! ## What an operation does -/

/-- The bus after a byte has been stored in a chip. -/
def stored (b : Bus) (chip : Nat) (m : Memory) (offset data : Int) : Bus :=
  { b with chips := b.chips.setIfInBounds chip (m.put offset.toNat (BitVec.ofInt 8 data)) }

/-- The bus with one more access in its log. -/
def logging (b : Bus) (x : Access) : Bus :=
  { b with log := b.log.push x }

/-- A chip has the place, and the number fits into a byte. -/
structure Accepts (b : Bus) (chip : Nat) (m : Memory) (offset data : Int) : Prop where
  chip : b.chips[chip]? = some m
  offset : m.has offset = true
  data : 0 ≤ data ∧ data ≤ 0xFF

/-- What an operation that does not fail returns, and the bus that it leaves. -/
inductive Does (b : Bus) : Operation → Reply → Bus → Prop
  | chip {size : Value} {n : Int} (given : size.asInt? = some n) (pos : 0 < n) :
      Does b (.chip size) .done { b with chips := b.chips.push (.zeroed n.toNat) }
  | register {first last : Int} {k : Nat} {m : Memory} (range : 0 ≤ first ∧ first ≤ last)
      (chip : b.chips[k]? = some m) (size : (m.size : Int) = last - first + 1) :
      Does b (.register first last (some k)) .done
        { b with regions := b.regions ++ [⟨first, last, k⟩] }
  | read {address : Int} {v : Byte} (reads : b.peek address = .ok v) :
      Does b (.read address) (.byte v) (b.logging ⟨.read, address, v.toNat⟩)
  | peek {address : Int} {v : Byte} (reads : b.peek address = .ok v) :
      Does b (.peek address) (.byte v) b
  | write {address data offset : Int} {k : Nat} {m : Memory}
      (place : b.resolve address = .ok (k, offset)) (accepts : b.Accepts k m offset data) :
      Does b (.write address data) .done
        ((b.stored k m offset data).logging ⟨.write, address, data⟩)
  | load {address data offset : Int} {k : Nat} {m : Memory}
      (place : b.resolve address = .ok (k, offset)) (accepts : b.Accepts k m offset data) :
      Does b (.load address data) .done (b.stored k m offset data)
  | readPort (port : Int) : Does b (.readPort port) (.byte 0) (b.logging ⟨.portIn, port, 0⟩)
  | writePort (port data : Int) :
      Does b (.writePort port data) .done (b.logging ⟨.portOut, port, data⟩)
  | chipRead {k : Nat} {offset : Int} {v : Byte} (reads : b.chipRead k offset = .ok v) :
      Does b (.chipRead k offset) (.byte v) b
  | chipWrite {k : Nat} {m : Memory} {offset data : Int} (accepts : b.Accepts k m offset data) :
      Does b (.chipWrite k offset data) .done (b.stored k m offset data)
  | takeLog : Does b .takeLog (.log b.log.toList) { b with log := #[] }

section

variable {α β : Type} {b b' : Bus} {act : Act α} {e : BusError}

theorem bind_of_ok {x : α} (h : act b = .ok x b') (f : α → Act β) : (act >>= f) b = f x b' := by
  simp only [Bind.bind, EStateM.bind, h]

theorem bind_of_error (h : act b = .error e b') (f : α → Act β) : (act >>= f) b = .error e b' := by
  simp only [Bind.bind, EStateM.bind, h]

theorem ofExcept_of_ok {r : Except BusError α} {x : α} (h : r = .ok x) (b : Bus) :
    (ofExcept r : Act α) b = .ok x b := by
  rw [h]
  rfl

theorem ofExcept_of_error {r : Except BusError α} (h : r = .error e) (b : Bus) :
    (ofExcept r : Act α) b = .error e b := by
  rw [h]
  rfl

end

/-- Adding a chip fails unless its size is positive. -/
theorem addChip_cases (b : Bus) (size : Value) :
    (∃ n, size.asInt? = some n ∧ 0 < n ∧
      addChip size b = .ok () { b with chips := b.chips.push (.zeroed n.toNat) }) ∨
    ∃ e, addChip size b = .error e b := by
  rw [addChip]
  cases hn : size.asInt? with
  | none => exact .inr ⟨.chipSize size, rfl⟩
  | some n =>
      by_cases hpos : 0 < n
      · simp only [if_pos hpos]
        exact .inl ⟨n, rfl, hpos, rfl⟩
      · simp only [if_neg hpos]
        exact .inr ⟨.chipSize size, rfl⟩

/-- Registering fails unless there is a range and a chip of its size. -/
theorem register_cases (b : Bus) (first last : Int) (chip : Option Nat) :
    (∃ k m, chip = some k ∧ (0 ≤ first ∧ first ≤ last) ∧ b.chips[k]? = some m ∧
      (m.size : Int) = last - first + 1 ∧
      register first last chip b = .ok () { b with regions := b.regions ++ [⟨first, last, k⟩] }) ∨
    (∃ e, register first last chip b = .error e b) ∧
      ¬∃ k m, chip = some k ∧ (0 ≤ first ∧ first ≤ last) ∧ b.chips[k]? = some m ∧
        (m.size : Int) = last - first + 1 := by
  by_cases hrange : 0 ≤ first ∧ first ≤ last
  · cases chip with
    | none => exact .inr ⟨⟨.noChip, by simp only [register, if_pos hrange]; rfl⟩, by simp⟩
    | some k =>
        have hget : (get : Act Bus) b = .ok b b := rfl
        simp only [register, if_pos hrange, bind_of_ok hget]
        cases hm : b.chips[k]? with
        | none => exact .inr ⟨⟨.noChip, rfl⟩, by simp [hm]⟩
        | some m =>
            by_cases hsize : (m.size : Int) = last - first + 1
            · simp only [if_pos hsize]
              exact .inl ⟨k, m, rfl, hrange, hm, hsize, rfl⟩
            · simp only [if_neg hsize]
              exact .inr ⟨⟨.sizeMismatch m.size first last, rfl⟩, by simp [hm, hsize]⟩
  · refine .inr ⟨⟨.invalidRange first last, by simp only [register, if_neg hrange]; rfl⟩, ?_⟩
    rintro ⟨_, _, _, h, _⟩
    exact hrange h

/-- Writing a place of a chip stores a byte, or fails because it is none. -/
theorem chipWrite_eq {b : Bus} {k : Nat} {m : Memory} {offset : Int} (hm : b.chips[k]? = some m)
    (hhas : m.has offset = true) (data : Int) : chipWrite k offset data b =
      if 0 ≤ data ∧ data ≤ 0xFF then .ok () (b.stored k m offset data)
      else .error (.notByte (.int data)) b := by
  simp only [chipWrite, onChip, hm, Memory.writeOffset_eq, if_pos hhas]
  by_cases hdata : 0 ≤ data ∧ data ≤ 0xFF
  · simp only [if_pos hdata]
    rfl
  · simp only [if_neg hdata, setIfInBounds_getElem? hm]

/-- Writing a chip stores a byte, or fails and leaves the bus as it is. -/
theorem chipWrite_cases (b : Bus) (k : Nat) (offset data : Int) :
    (∃ m, b.Accepts k m offset data ∧
      chipWrite k offset data b = .ok () (b.stored k m offset data)) ∨
    ∃ e, chipWrite k offset data b = .error e b := by
  cases hm : b.chips[k]? with
  | none => exact .inr ⟨.noChip, by simp only [chipWrite, onChip, hm]⟩
  | some m =>
      by_cases hhas : m.has offset
      · rw [chipWrite_eq hm hhas]
        by_cases hdata : 0 ≤ data ∧ data ≤ 0xFF
        · exact .inl ⟨m, ⟨hm, hhas, hdata⟩, if_pos hdata⟩
        · exact .inr ⟨_, if_neg hdata⟩
      · refine .inr ⟨.outsideChip offset m.size, ?_⟩
        simp only [chipWrite, onChip, hm, Memory.writeOffset_eq, if_neg hhas,
          setIfInBounds_getElem? hm]

theorem load_of_resolve {b : Bus} {address : Int} {p : Nat × Int} (hp : b.resolve address = .ok p)
    (data : Int) : load address data b = chipWrite p.1 p.2 data b :=
  bind_of_ok (ofExcept_of_ok hp b) fun p => chipWrite p.1 p.2 data

theorem load_of_error {b : Bus} {address : Int} {e : BusError} (hp : b.resolve address = .error e)
    (data : Int) : load address data b = .error e b :=
  bind_of_error (ofExcept_of_error hp b) fun p => chipWrite p.1 p.2 data

/-- Storing at an address stores in the chip that answers there, or fails. -/
theorem load_cases (b : Bus) (address data : Int) :
    (∃ k m offset, b.resolve address = .ok (k, offset) ∧ b.Accepts k m offset data ∧
      load address data b = .ok () (b.stored k m offset data)) ∨
    ∃ e, load address data b = .error e b := by
  cases hp : b.resolve address with
  | error e => exact .inr ⟨e, load_of_error hp data⟩
  | ok p =>
      rw [load_of_resolve hp]
      rcases chipWrite_cases b p.1 p.2 data with ⟨m, haccepts, hwrite⟩ | ⟨e, hwrite⟩
      · exact .inl ⟨p.1, m, p.2, rfl, haccepts, hwrite⟩
      · exact .inr ⟨e, hwrite⟩

theorem write_of_load {b b' : Bus} {address data : Int} (hload : load address data b = .ok () b') :
    write address data b = .ok () (b'.logging ⟨.write, address, data⟩) :=
  bind_of_ok hload fun _ => record .write address data

theorem write_of_error {b b' : Bus} {address data : Int} {e : BusError}
    (hload : load address data b = .error e b') : write address data b = .error e b' :=
  bind_of_error hload fun _ => record .write address data

/-- A read that does not fail is recorded. -/
theorem read_of_peek {b : Bus} {address : Int} {v : Byte} (hv : b.peek address = .ok v) :
    read address b = .ok v (b.logging ⟨.read, address, v.toNat⟩) :=
  bind_of_ok (ofExcept_of_ok hv b) fun v => record .read address v.toNat >>= fun _ => pure v

theorem read_of_error {b : Bus} {address : Int} {e : BusError} (hv : b.peek address = .error e) :
    read address b = .error e b :=
  bind_of_error (ofExcept_of_error hv b) fun v => record .read address v.toNat >>= fun _ => pure v

/-- An operation does what `Does` says, or fails and leaves the bus as it is. -/
theorem perform_cases (b : Bus) (o : Operation) :
    (∃ x b', perform o b = .ok x b' ∧ b.Does o x b') ∨ ∃ e, perform o b = .error e b := by
  cases o with
  | chip size =>
      rcases addChip_cases b size with ⟨n, hn, hpos, hadd⟩ | ⟨e, hadd⟩
      · exact .inl ⟨_, _, bind_of_ok hadd _, .chip hn hpos⟩
      · exact .inr ⟨e, bind_of_error hadd _⟩
  | register first last chip =>
      rcases register_cases b first last chip with
        ⟨k, m, rfl, hrange, hm, hsize, hregister⟩ | ⟨⟨e, hregister⟩, -⟩
      · exact .inl ⟨_, _, bind_of_ok hregister _, .register hrange hm hsize⟩
      · exact .inr ⟨e, bind_of_error hregister _⟩
  | read address =>
      cases hv : b.peek address with
      | error e => exact .inr ⟨e, bind_of_error (read_of_error hv) _⟩
      | ok v => exact .inl ⟨_, _, bind_of_ok (read_of_peek hv) _, .read hv⟩
  | peek address =>
      cases hv : b.peek address with
      | error e => exact .inr ⟨e, bind_of_error (ofExcept_of_error hv b) _⟩
      | ok v => exact .inl ⟨_, _, bind_of_ok (ofExcept_of_ok hv b) _, .peek hv⟩
  | write address data =>
      rcases load_cases b address data with ⟨k, m, offset, hplace, haccepts, hload⟩ | ⟨e, hload⟩
      · exact .inl ⟨_, _, bind_of_ok (write_of_load hload) _, .write hplace haccepts⟩
      · exact .inr ⟨e, bind_of_error (write_of_error hload) _⟩
  | load address data =>
      rcases load_cases b address data with ⟨k, m, offset, hplace, haccepts, hload⟩ | ⟨e, hload⟩
      · exact .inl ⟨_, _, bind_of_ok hload _, .load hplace haccepts⟩
      · exact .inr ⟨e, bind_of_error hload _⟩
  | readPort port => exact .inl ⟨_, _, rfl, .readPort port⟩
  | writePort port data => exact .inl ⟨_, _, rfl, .writePort port data⟩
  | chipRead k offset =>
      cases hv : b.chipRead k offset with
      | error e => exact .inr ⟨e, bind_of_error (ofExcept_of_error hv b) _⟩
      | ok v => exact .inl ⟨_, _, bind_of_ok (ofExcept_of_ok hv b) _, .chipRead hv⟩
  | chipWrite k offset data =>
      rcases chipWrite_cases b k offset data with ⟨m, haccepts, hwrite⟩ | ⟨e, hwrite⟩
      · exact .inl ⟨_, _, bind_of_ok hwrite _, .chipWrite haccepts⟩
      · exact .inr ⟨e, bind_of_error hwrite _⟩
  | takeLog => exact .inl ⟨_, _, rfl, .takeLog⟩

/-! ## Histories -/

/-- An operation and what came of it. -/
structure Deed where
  operation : Operation
  outcome : Except BusError Reply

namespace Deed

/-- The size of the chip that was added. -/
def size? : Deed → Option Nat
  | ⟨.chip size, .ok _⟩ => size.asInt?.map Int.toNat
  | _ => none

/-- The range that was registered. -/
def region? : Deed → Option Region
  | ⟨.register first last (some k), .ok _⟩ => some ⟨first, last, k⟩
  | _ => none

/-- What was stored and where, if addresses stand for the places that `place` tells. -/
def stored? (place : Int → Option (Nat × Int)) : Deed → Option ((Nat × Int) × Int)
  | ⟨.write address data, .ok _⟩ => (place address).map fun p => (p, data)
  | ⟨.load address data, .ok _⟩ => (place address).map fun p => (p, data)
  | ⟨.chipWrite k offset data, .ok _⟩ => some ((k, offset), data)
  | _ => none

/-- The access that was made. -/
def access? : Deed → Option Access
  | ⟨.read address, .ok (.byte v)⟩ => some ⟨.read, address, v.toNat⟩
  | ⟨.write address data, .ok _⟩ => some ⟨.write, address, data⟩
  | ⟨.readPort port, .ok (.byte v)⟩ => some ⟨.portIn, port, v.toNat⟩
  | ⟨.writePort port data, .ok _⟩ => some ⟨.portOut, port, data⟩
  | _ => none

/-- The log was taken. -/
def takesLog : Deed → Bool
  | ⟨.takeLog, .ok _⟩ => true
  | _ => false

end Deed

/-- What has been done to a bus, latest first. -/
abbrev History := List Deed

namespace History

/-- The sizes of the chips. -/
def sizes : History → List Nat
  | [] => []
  | d :: h => sizes h ++ d.size?.toList

/-- The ranges that were registered, in order. -/
def regions : History → List Region
  | [] => []
  | d :: h => regions h ++ d.region?.toList

/-- The earliest range that holds an address. -/
def regionAt (h : History) (address : Int) : Option Region :=
  h.regions.find? fun r => r.first ≤ address && address ≤ r.last

/-- The chip and the offset that an address stands for. -/
def place (h : History) (address : Int) : Option (Nat × Int) :=
  (h.regionAt address).map fun r => (r.chip, address - r.first)

/-- What was last stored at an offset of a chip, by whatever route; zero if nothing was. -/
def latest (p : Nat × Int) : History → Int
  | [] => 0
  | d :: h =>
    match d.stored? (place h) with
    | some (q, data) => if q = p then data else latest p h
    | none => latest p h

/-- The accesses since the log was last taken, in order. -/
def logged : History → List Access
  | [] => []
  | d :: h => if d.takesLog then [] else logged h ++ d.access?.toList

end History

/-- Carries out an operation and notes what came of it. -/
def carryOut (s : Bus × History) (o : Operation) : Bus × History :=
  match perform o s.1 with
  | .ok x b => (b, ⟨o, .ok x⟩ :: s.2)
  | .error e b => (b, ⟨o, .error e⟩ :: s.2)

/-- Carries out operations on a new bus, one after the other. -/
def carriedOut (ops : List Operation) : Bus × History :=
  ops.foldl carryOut ({}, [])

theorem carriedOut_append (ops more : List Operation) :
    carriedOut (ops ++ more) = more.foldl carryOut (carriedOut ops) :=
  List.foldl_append

/-! ## A bus reflects its history -/

/-- What a chip holds at an offset, and zero where it has no such place. -/
def cell (b : Bus) (p : Nat × Int) : Int :=
  ((b.chipRead p.1 p.2).toOption.getD 0).toNat

/-- What is seen of a bus is what its history tells, and every range has the size of its chip. -/
structure Reflects (h : History) (b : Bus) : Prop where
  sizes : b.chips.toList.map Memory.size = h.sizes
  regions : b.regions = h.regions
  cells : ∀ p, b.cell p = h.latest p
  log : b.log.toList = h.logged
  fits : ∀ r ∈ h.regions, ∃ n, h.sizes[r.chip]? = some n ∧ (n : Int) = r.last - r.first + 1

theorem reflects_new : Reflects [] {} where
  sizes := rfl
  regions := rfl
  cells _ := rfl
  log := rfl
  fits _ hr := nomatch hr

variable {b b' : Bus} {h : History}

/-- What a deed adds to the history it has to add to the bus. -/
theorem Reflects.cons (hb : Reflects h b) {d : Deed}
    (hsizes : b'.chips.toList.map Memory.size = b.chips.toList.map Memory.size ++ d.size?.toList)
    (hregions : b'.regions = b.regions ++ d.region?.toList)
    (hcells : ∀ p, b'.cell p = match d.stored? h.place with
      | some (q, data) => if q = p then data else b.cell p
      | none => b.cell p)
    (hlog : b'.log.toList = if d.takesLog then [] else b.log.toList ++ d.access?.toList)
    (hfits : ∀ r ∈ d.region?, ∃ m, b.chips[r.chip]? = some m ∧
      (m.size : Int) = r.last - r.first + 1) : Reflects (d :: h) b' := by
  -- a chip keeps its number and its size
  have hkeeps {k n : Nat} (hn : h.sizes[k]? = some n) :
      (History.sizes (d :: h))[k]? = some n := by
    obtain ⟨hk, -⟩ := List.getElem?_eq_some_iff.1 hn
    rw [History.sizes, List.getElem?_append_left hk, hn]
  refine ⟨?_, ?_, fun p => ?_, ?_, fun r hr => ?_⟩
  · rw [hsizes, hb.sizes, History.sizes]
  · rw [hregions, hb.regions, History.regions]
  · rw [hcells, hb.cells, History.latest]
  · rw [hlog, hb.log, History.logged]
  · rw [History.regions, List.mem_append, Option.mem_toList] at hr
    rcases hr with hr | hr
    · obtain ⟨n, hn, hsize⟩ := hb.fits r hr
      exact ⟨n, hkeeps hn, hsize⟩
    · obtain ⟨m, hm, hsize⟩ := hfits r hr
      refine ⟨m.size, hkeeps ?_, hsize⟩
      rw [← hb.sizes, List.getElem?_map, Array.getElem?_toList, hm]
      rfl

/-- A failure adds nothing. -/
theorem Reflects.error (hb : Reflects h b) (o : Operation) (e : BusError) :
    Reflects (⟨o, .error e⟩ :: h) b := by
  have hsize : Deed.size? ⟨o, .error e⟩ = none := by cases o <;> rfl
  have hregion : Deed.region? ⟨o, .error e⟩ = none := by
    cases o with
    | register first last chip => cases chip <;> rfl
    | _ => rfl
  have hstored : Deed.stored? h.place ⟨o, .error e⟩ = none := by cases o <;> rfl
  have haccess : Deed.access? ⟨o, .error e⟩ = none := by cases o <;> rfl
  have htakes : Deed.takesLog ⟨o, .error e⟩ = false := by cases o <;> rfl
  refine hb.cons ?_ ?_ (fun p => ?_) ?_ fun r hr => ?_
  · rw [hsize]
    exact (List.append_nil _).symm
  · rw [hregion]
    exact (List.append_nil _).symm
  · rw [hstored]
  · rw [htakes, haccess]
    exact (List.append_nil _).symm
  · rw [hregion] at hr
    cases hr

/-- An address resolves to the place that the history tells, and fails if there is none. -/
theorem Reflects.resolve (hb : Reflects h b) (address : Int) :
    b.resolve address = match h.place address with
      | some p => .ok p
      | none => .error (.unmapped address) := by
  rw [Bus.resolve, Bus.region?, hb.regions, History.place, History.regionAt]
  cases h.regions.find? fun r => decide (r.first ≤ address) && decide (address ≤ r.last) <;> rfl

theorem Reflects.place_of_resolve (hb : Reflects h b) {address : Int} {p : Nat × Int}
    (hp : b.resolve address = .ok p) : h.place address = some p := by
  rw [hb.resolve] at hp
  cases hplace : h.place address with
  | none =>
      rw [hplace] at hp
      cases hp
  | some q =>
      rw [hplace] at hp
      cases hp
      rfl

theorem chipRead_stored {k : Nat} {m : Memory} {offset data : Int}
    (haccepts : b.Accepts k m offset data) (p : Nat × Int) :
    (b.stored k m offset data).chipRead p.1 p.2 =
      if (k, offset) = p then .ok (BitVec.ofInt 8 data) else b.chipRead p.1 p.2 := by
  obtain ⟨j, i⟩ := p
  obtain ⟨hk, hm⟩ := Array.getElem?_eq_some_iff.1 haccepts.chip
  simp only [chipRead, stored, Array.getElem?_setIfInBounds, Prod.mk.injEq]
  by_cases hj : k = j
  · subst hj
    simp only [if_true, if_pos hk, haccepts.chip, Memory.readOffset_put haccepts.offset, true_and,
      eq_comm]
  · simp only [hj, false_and, if_false]

theorem cell_stored {k : Nat} {m : Memory} {offset data : Int}
    (haccepts : b.Accepts k m offset data) (p : Nat × Int) :
    (b.stored k m offset data).cell p = if (k, offset) = p then data else b.cell p := by
  rw [cell, chipRead_stored haccepts]
  by_cases hp : (k, offset) = p
  · obtain ⟨hlow, hhigh⟩ := haccepts.data
    rw [if_pos hp, if_pos hp]
    show ((BitVec.ofInt 8 data).toNat : Int) = data
    rw [BitVec.toNat_ofInt]
    omega
  · rw [if_neg hp, if_neg hp]
    rfl

theorem sizes_stored {k : Nat} {m : Memory} {offset data : Int}
    (haccepts : b.Accepts k m offset data) :
    (b.stored k m offset data).chips.toList.map Memory.size = b.chips.toList.map Memory.size := by
  obtain ⟨hk, hm⟩ := Array.getElem?_eq_some_iff.1 haccepts.chip
  apply List.ext_getElem?
  intro j
  simp only [stored, List.getElem?_map, Array.getElem?_toList, Array.getElem?_setIfInBounds]
  by_cases hj : k = j
  · subst hj
    rw [if_pos rfl, if_pos hk, haccepts.chip, Option.map_some, Option.map_some, Memory.size_put]
  · rw [if_neg hj]

theorem cell_push (b : Bus) (n : Nat) (p : Nat × Int) :
    cell { b with chips := b.chips.push (.zeroed n) } p = b.cell p := by
  simp only [cell, chipRead, Array.getElem?_push]
  by_cases hp : p.1 = b.chips.size
  · have hnone : b.chips[p.1]? = none := Array.getElem?_eq_none (Nat.le_of_eq hp.symm)
    simp only [if_pos hp, hnone, Memory.readOffset_zeroed]
    rfl
  · simp only [if_neg hp]

/-- What an operation does is what its deed tells. -/
theorem Reflects.does (hb : Reflects h b) {o : Operation} {x : Reply} (hdoes : b.Does o x b') :
    Reflects (⟨o, .ok x⟩ :: h) b' := by
  cases hdoes with
  | @chip size n given pos =>
      refine hb.cons ?_ (List.append_nil _).symm (cell_push b n.toNat) (List.append_nil _).symm
        fun r hr => nomatch hr
      simp [Deed.size?, given]
  | @register first last k m range chip size =>
      refine hb.cons (List.append_nil _).symm rfl (fun p => rfl) (List.append_nil _).symm
        fun r hr => ?_
      obtain rfl := Option.mem_some_iff.1 hr
      exact ⟨m, chip, size⟩
  | read reads =>
      exact hb.cons (List.append_nil _).symm (List.append_nil _).symm (fun p => rfl)
        Array.toList_push fun r hr => nomatch hr
  | peek reads =>
      exact hb.cons (List.append_nil _).symm (List.append_nil _).symm (fun p => rfl)
        (List.append_nil _).symm fun r hr => nomatch hr
  | @write address data offset k m place accepts =>
      refine hb.cons ?_ (List.append_nil _).symm (fun p => ?_) Array.toList_push
        fun r hr => nomatch hr
      · exact (sizes_stored accepts).trans (List.append_nil _).symm
      · rw [Deed.stored?, hb.place_of_resolve place]
        exact cell_stored accepts p
  | @load address data offset k m place accepts =>
      refine hb.cons ?_ (List.append_nil _).symm (fun p => ?_) (List.append_nil _).symm
        fun r hr => nomatch hr
      · exact (sizes_stored accepts).trans (List.append_nil _).symm
      · rw [Deed.stored?, hb.place_of_resolve place]
        exact cell_stored accepts p
  | readPort port =>
      exact hb.cons (List.append_nil _).symm (List.append_nil _).symm (fun p => rfl)
        Array.toList_push fun r hr => nomatch hr
  | writePort port data =>
      exact hb.cons (List.append_nil _).symm (List.append_nil _).symm (fun p => rfl)
        Array.toList_push fun r hr => nomatch hr
  | chipRead reads =>
      exact hb.cons (List.append_nil _).symm (List.append_nil _).symm (fun p => rfl)
        (List.append_nil _).symm fun r hr => nomatch hr
  | chipWrite accepts =>
      exact hb.cons ((sizes_stored accepts).trans (List.append_nil _).symm)
        (List.append_nil _).symm (cell_stored accepts) (List.append_nil _).symm
        fun r hr => nomatch hr
  | takeLog =>
      exact hb.cons (List.append_nil _).symm (List.append_nil _).symm (fun p => rfl) rfl
        fun r hr => nomatch hr

/-- One operation. -/
theorem Reflects.carryOut {s : Bus × History} (hs : Reflects s.2 s.1) (o : Operation) :
    Reflects (carryOut s o).2 (carryOut s o).1 := by
  rcases perform_cases s.1 o with ⟨x, b', hperform, hdoes⟩ | ⟨e, hperform⟩
  · rw [Bus.carryOut, hperform]
    exact hs.does hdoes
  · rw [Bus.carryOut, hperform]
    exact hs.error o e

/-- All operations. -/
theorem reflects_carriedOut (ops : List Operation) :
    Reflects (carriedOut ops).2 (carriedOut ops).1 := by
  suffices hall : ∀ s : Bus × History, Reflects s.2 s.1 →
      Reflects (ops.foldl Bus.carryOut s).2 (ops.foldl Bus.carryOut s).1 from
    hall ({}, []) reflects_new
  induction ops with
  | nil => exact fun s hs => hs
  | cons o ops ih => exact fun s hs => ih _ (hs.carryOut o)

/-! ## The store -/

/-- What an address stands for is a place of a chip. -/
theorem Reflects.has_of_resolve (hb : Reflects h b) {address : Int} {p : Nat × Int}
    (hp : b.resolve address = .ok p) : ∃ m, b.chips[p.1]? = some m ∧ m.has p.2 = true := by
  obtain ⟨r, hr, rfl⟩ := Option.map_eq_some_iff.1 (hb.place_of_resolve hp)
  obtain ⟨n, hn, hsize⟩ := hb.fits r (List.mem_of_find?_eq_some hr)
  rw [← hb.sizes, List.getElem?_map, Array.getElem?_toList] at hn
  obtain ⟨m, hm, rfl⟩ := Option.map_eq_some_iff.1 hn
  have hin := List.find?_some hr
  rw [Bool.and_eq_true, decide_eq_true_eq, decide_eq_true_eq] at hin
  refine ⟨m, hm, Memory.has_iff.2 ?_⟩
  show 0 ≤ address - r.first ∧ address - r.first < m.size
  omega

/-- What a chip returns is what was last stored there. -/
theorem Reflects.toNat_of_chipRead (hb : Reflects h b) {k : Nat} {offset : Int} {v : Byte}
    (hv : b.chipRead k offset = .ok v) : (v.toNat : Int) = h.latest (k, offset) := by
  rw [← hb.cells, cell, hv]
  rfl

/-- A mapped address reads as what was last stored there. -/
theorem Reflects.peek_of_resolve (hb : Reflects h b) {address : Int} {p : Nat × Int}
    (hp : b.resolve address = .ok p) :
    ∃ v, b.peek address = .ok v ∧ (v.toNat : Int) = h.latest p := by
  obtain ⟨m, hm, hhas⟩ := hb.has_of_resolve hp
  obtain ⟨v, -, hv⟩ := Memory.readOffset_of_has hhas
  have hread : b.chipRead p.1 p.2 = .ok v := by simp only [chipRead, hm, hv]
  refine ⟨v, ?_, hb.toNat_of_chipRead hread⟩
  rw [peek, hp]
  exact hread

/-- A range stays the first that holds an address when further ones are registered. -/
theorem regionAt_carryOut {s : Bus × History} {address : Int} {r : Region}
    (hr : s.2.regionAt address = some r) (o : Operation) :
    (carryOut s o).2.regionAt address = some r := by
  have happend (d : Deed) : History.regionAt (d :: s.2) address = some r := by
    rw [History.regionAt, History.regions, List.find?_append, ← History.regionAt, hr]
    rfl
  rcases perform_cases s.1 o with ⟨x, b', hperform, -⟩ | ⟨e, hperform⟩
  · rw [carryOut, hperform]
    exact happend _
  · rw [carryOut, hperform]
    exact happend _

theorem regionAt_foldl (more : List Operation) {s : Bus × History} {address : Int} {r : Region}
    (hr : s.2.regionAt address = some r) :
    (more.foldl carryOut s).2.regionAt address = some r := by
  induction more generalizing s with
  | nil => exact hr
  | cons o more ih => exact ih (regionAt_carryOut hr o)

theorem Reflects.resolve_regionAt (hb : Reflects h b) (address : Int) :
    b.resolve address = match h.regionAt address with
      | some r => .ok (r.chip, address - r.first)
      | none => .error (.unmapped address) := by
  rw [hb.resolve, History.place]
  cases h.regionAt address <;> rfl

/-- What can be done at a mapped address: it reads as `p` was last stored, and takes bytes. -/
structure Serves (b : Bus) (h : History) (address : Int) (p : Nat × Int) : Prop where
  reads : ∃ v : Byte, (v.toNat : Int) = h.latest p ∧
    perform (.peek address) b = .ok (.byte v) b ∧
    perform (.read address) b = .ok (.byte v) (b.logging ⟨.read, address, v.toNat⟩)
  takes : ∀ data, 0 ≤ data ∧ data ≤ 0xFF → ∃ b', perform (.load address data) b = .ok .done b' ∧
    perform (.write address data) b = .ok .done (b'.logging ⟨.write, address, data⟩)
  refuses : ∀ data, ¬(0 ≤ data ∧ data ≤ 0xFF) →
    perform (.load address data) b = .error (.notByte (.int data)) b ∧
    perform (.write address data) b = .error (.notByte (.int data)) b

/-- Nothing can be done at an unmapped address. -/
structure Unmapped (b : Bus) (address : Int) : Prop where
  peek : perform (.peek address) b = .error (.unmapped address) b
  read : perform (.read address) b = .error (.unmapped address) b
  load : ∀ data, perform (.load address data) b = .error (.unmapped address) b
  write : ∀ data, perform (.write address data) b = .error (.unmapped address) b

theorem Reflects.serves (hb : Reflects h b) {address : Int} {p : Nat × Int}
    (hp : b.resolve address = .ok p) : b.Serves h address p := by
  obtain ⟨m, hm, hhas⟩ := hb.has_of_resolve hp
  have hload (data : Int) := (load_of_resolve hp data).trans (chipWrite_eq hm hhas data)
  refine ⟨?_, fun data hdata => ?_, fun data hdata => ?_⟩
  · obtain ⟨v, hv, hlatest⟩ := hb.peek_of_resolve hp
    exact ⟨v, hlatest, bind_of_ok (ofExcept_of_ok hv b) _, bind_of_ok (read_of_peek hv) _⟩
  · have hok := (hload data).trans (if_pos hdata)
    exact ⟨_, bind_of_ok hok _, bind_of_ok (write_of_load hok) _⟩
  · have herror := (hload data).trans (if_neg hdata)
    exact ⟨bind_of_error herror _, bind_of_error (write_of_error herror) _⟩

theorem unmapped_of_resolve {address : Int} (hp : b.resolve address = .error (.unmapped address)) :
    b.Unmapped address := by
  have hv : b.peek address = .error (.unmapped address) := by
    rw [Bus.peek, hp]
    rfl
  exact ⟨bind_of_error (ofExcept_of_error hv b) _, bind_of_error (read_of_error hv) _,
    fun data => bind_of_error (load_of_error hp data) _,
    fun data => bind_of_error (write_of_error (load_of_error hp data)) _⟩

/-- A range is registered exactly if it is one and has the size of its chip. -/
theorem Reflects.registers_iff (hb : Reflects h b) (first last : Int) (chip : Option Nat) :
    (∃ b', perform (.register first last chip) b = .ok .done b') ↔
      (0 ≤ first ∧ first ≤ last) ∧
        ∃ k n, chip = some k ∧ h.sizes[k]? = some n ∧ (n : Int) = last - first + 1 := by
  have hsize (k n : Nat) : h.sizes[k]? = some n ↔ ∃ m, b.chips[k]? = some m ∧ m.size = n := by
    rw [← hb.sizes, List.getElem?_map, Array.getElem?_toList, Option.map_eq_some_iff]
  rcases register_cases b first last chip with
    ⟨k, m, rfl, hrange, hm, hlength, hregister⟩ | ⟨⟨e, hregister⟩, hnone⟩
  · exact iff_of_true ⟨_, bind_of_ok hregister _⟩
      ⟨hrange, k, m.size, rfl, (hsize k m.size).2 ⟨m, hm, rfl⟩, hlength⟩
  · refine iff_of_false ?_ ?_
    · rintro ⟨b', hok⟩
      cases hok.symm.trans (bind_of_error hregister _)
    · rintro ⟨hrange, k, n, hk, hn, hlength⟩
      obtain ⟨m, hm, rfl⟩ := (hsize k n).1 hn
      exact hnone ⟨k, m, hk, hrange, hm, hlength⟩

/-- Whatever has been done to a bus, it is a store of devices. An address resolves to the earliest
    range that holds it, whatever is done later. A mapped address reads as what was last stored at
    its place, by whatever route, and takes any byte; an unmapped one fails as such. A range is
    registered if it has the size of its chip. The log holds the accesses since it was last taken.
    What fails leaves the bus as it was. -/
theorem carriedOut_store (ops : List Operation) :
    let b := (carriedOut ops).1
    let h := (carriedOut ops).2
    (∀ address, b.resolve address = match h.regionAt address with
      | some r => .ok (r.chip, address - r.first)
      | none => .error (.unmapped address)) ∧
    (∀ address p, b.resolve address = .ok p →
      b.Serves h address p ∧ ∀ more, (carriedOut (ops ++ more)).1.resolve address = .ok p) ∧
    (∀ address, h.regionAt address = none → b.Unmapped address) ∧
    (∀ k offset x b', perform (.chipRead k offset) b = .ok x b' →
      ∃ v : Byte, x = .byte v ∧ (v.toNat : Int) = h.latest (k, offset)) ∧
    (∀ first last chip, (∃ b', perform (.register first last chip) b = .ok .done b') ↔
      (0 ≤ first ∧ first ≤ last) ∧
        ∃ k n, chip = some k ∧ h.sizes[k]? = some n ∧ (n : Int) = last - first + 1) ∧
    b.log.toList = h.logged ∧
    ∀ o e b', perform o b = .error e b' → b' = b := by
  intro b h
  have hb : Reflects h b := reflects_carriedOut ops
  refine ⟨hb.resolve_regionAt, fun address p hp => ⟨hb.serves hp, fun more => ?_⟩,
    fun address hnone => ?_, fun k offset x b' hread => ?_, hb.registers_iff, hb.log,
    fun o e b' herror => ?_⟩
  · -- later operations keep the range, and so what the address resolves to
    obtain ⟨r, hr, rfl⟩ := Option.map_eq_some_iff.1 (hb.place_of_resolve hp)
    have hr' := regionAt_foldl more hr
    rw [(reflects_carriedOut (ops ++ more)).resolve_regionAt, carriedOut_append, hr']
  · exact unmapped_of_resolve (by rw [hb.resolve_regionAt, hnone])
  · rcases perform_cases b (.chipRead k offset) with ⟨y, c, hok, hdoes⟩ | ⟨e, herror⟩
    · cases hread.symm.trans hok
      cases hdoes with
      | @chipRead k offset v reads => exact ⟨v, rfl, hb.toNat_of_chipRead reads⟩
    · cases hread.symm.trans herror
  · rcases perform_cases b o with ⟨x, c, hok, -⟩ | ⟨e', hfail⟩
    · cases herror.symm.trans hok
    · cases herror.symm.trans hfail
      rfl

/-- A chip that answers in two ranges which overlap. Address 2 stands for offset 2, as the range
    registered first has it, so address 4 and the chip itself show what is written there. -/
example : let b := (carriedOut [.chip (.int 4), .register 0 3 (some 0), .register 2 5 (some 0),
      .write 2 7, .write 4 256, .load 9 1]).1
    (b.resolve 2, b.peek 4, b.chipRead 0 2, b.log) =
      (.ok (0, 2), .ok 7, .ok 7, #[⟨.write, 2, 7⟩]) := by
  rfl

end Bus

end Lab8085
