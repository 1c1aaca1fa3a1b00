/-
  Lab8085.Proofs.Config.InitialState

  The state that a configuration asks for.

  It comes about by a list of changes made to the state after power-on: to the counter, the
  pointer and the mask, then one for each register entry with the name of a register, then one for
  each flag entry with the name of a flag.  What carries the induction over the changes is that of
  the changes to one part the last one stays (`State.foldl_apply`).  Entries whose names stand for
  nothing bring no change but a warning.
-/
import Lab8085.Config.Building

namespace Lab8085

/-! ## Names -/

theorem Register.ofName?_eq_some {name : String} {r : Register} :
    Register.ofName? name = some r ↔ name = r.name := by
  constructor
  · intro h
    have hfound := List.find?_some h
    exact (beq_iff_eq.1 hfound).symm
  · rintro rfl
    cases r <;> decide

theorem Flag.ofName?_eq_some {name : String} {f : Flag} :
    Flag.ofName? name = some f ↔ name = f.name := by
  constructor
  · intro h
    have hfound := List.find?_some h
    exact (beq_iff_eq.1 hfound).symm
  · rintro rfl
    cases f <;> decide

/-! ## Changes -/

namespace State

/-- A part of the state is as the last change to it left it. -/
theorem foldl_apply {α : Type} {part : State → α} {given? : Change → Option α}
    (h : ∀ s c, part (s.apply c) = (given? c).getD (part s)) (cs : List Change) (s : State) :
    part (cs.foldl apply s) = (cs.reverse.findSome? given?).getD (part s) := by
  induction cs generalizing s with
  | nil => rfl
  | cons c cs ih =>
      rw [List.foldl_cons, ih, h, List.reverse_cons, List.findSome?_append]
      cases cs.reverse.findSome? given? <;> cases hc : given? c <;> simp [hc]

end State

namespace Change

def pc? : Change → Option Word
  | .pc v => some v
  | _ => none

def sp? : Change → Option Word
  | .sp v => some v
  | _ => none

def mask? : Change → Option Byte
  | .mask v => some v
  | _ => none

def register? (r : Register) : Change → Option Byte
  | .register q v => if q = r then some v else none
  | _ => none

def flag? (f : Flag) : Change → Option Bool
  | .flag g v => if g = f then some v else none
  | _ => none

end Change

theorem State.register_apply (r : Register) (s : State) (c : Change) :
    (s.apply c).registers.get r = (c.register? r).getD (s.registers.get r) := by
  cases c with
  | register q v =>
      simp only [State.apply, Change.register?, Registers.get_set, eq_comm]
      split <;> rfl
  | _ => rfl

theorem State.flag_apply (f : Flag) (s : State) (c : Change) :
    (s.apply c).flags.get f = (c.flag? f).getD (s.flags.get f) := by
  cases c with
  | flag g v =>
      simp only [State.apply, Change.flag?, Flags.get_set, eq_comm]
      split <;> rfl
  | _ => rfl

theorem Machine.foldl_change (cs : List Change) (m : Machine) :
    cs.foldl Machine.change m = { m with state := cs.foldl State.apply m.state } := by
  induction cs generalizing m with
  | nil => rfl
  | cons c cs ih => rw [List.foldl_cons, ih]; rfl

/-! ## Entries with names -/

namespace Config

/-- The value of the last entry of which the name in upper case is `name`. -/
def lastNamed? {α : Type} (name : String) (es : List (String × α)) : Option α :=
  (es.reverse.find? fun e => Text.upperName e.1 == name).map (·.2)

/-- The names of entries that are in upper case none of `known`. -/
def strangers {α : Type} (known : List String) (es : List (String × α)) : List String :=
  (es.map (·.1)).filter fun name => Text.upperName name ∉ known

/-- The changes that entries bring whose names stand for something. -/
def namedChanges {α ρ : Type} (of? : String → Option ρ) (change : ρ → α → Change)
    (es : List (String × α)) : List Change :=
  es.filterMap fun e => (of? (Text.upperName e.1)).map fun q => change q e.2

section Named

variable {α β ρ : Type} {of? : String → Option ρ} {change : ρ → α → Change}
  {given? : Change → Option β}

/-- The last change to a part comes from the last entry with the name of the part. -/
theorem findSome?_namedChanges [DecidableEq ρ] {r : ρ} {name : String}
    (hname : ∀ n, of? n = some r ↔ n = name) {value : α → β}
    (hgiven : ∀ q x, given? (change q x) = if q = r then some (value x) else none)
    (es : List (String × α)) :
    (namedChanges of? change es).reverse.findSome? given? = (lastNamed? name es).map value := by
  rw [namedChanges, ← List.filterMap_reverse, lastNamed?]
  induction es.reverse with
  | nil => rfl
  | cons e es ih =>
      rw [List.filterMap_cons, List.find?_cons]
      by_cases h : Text.upperName e.1 = name
      · rw [(hname _).2 h, beq_iff_eq.2 h]
        simp [hgiven]
      · rw [beq_false_of_ne h, ← ih]
        cases hq : of? (Text.upperName e.1) with
        | none => rfl
        | some q =>
            have hne : q ≠ r := fun hqr => h ((hname _).1 (hqr ▸ hq))
            simp [hgiven, hne]

/-- Entries bring no change to another part. -/
theorem findSome?_namedChanges_other (hgiven : ∀ q x, given? (change q x) = none)
    (es : List (String × α)) :
    (namedChanges of? change es).reverse.findSome? given? = none := by
  refine List.findSome?_eq_none_iff.2 fun c hc => ?_
  obtain ⟨e, -, he⟩ := List.mem_filterMap.1 (List.mem_reverse.1 hc)
  obtain ⟨q, -, rfl⟩ := Option.map_eq_some_iff.1 he
  exact hgiven q e.2

end Named

/-! ## The initial state -/

namespace InitialState

theorem changes_eq (i : InitialState) : i.changes =
    [.pc (BitVec.ofInt 16 i.pc), .sp (BitVec.ofInt 16 i.sp), .mask (BitVec.ofInt 8 i.mask)] ++
      namedChanges Register.ofName? (fun r n => .register r (BitVec.ofInt 8 n)) i.registers ++
      namedChanges Flag.ofName? (fun f v => .flag f v.truth) i.flags := rfl

theorem applyTo_eq (i : InitialState) (m : Machine) :
    i.applyTo m = { m with state := i.changes.foldl State.apply {}, steps := 0 } :=
  Machine.foldl_change i.changes m.reset

/-- A part of the initial state is as the last change to it leaves it: first the entries of flags
    are looked at, then those of registers, then the rest. -/
theorem part_changes {α : Type} (part : State → α) (given? : Change → Option α)
    (h : ∀ s c, part (s.apply c) = (given? c).getD (part s)) (i : InitialState) :
    part (i.changes.foldl State.apply {}) =
      ((((namedChanges Flag.ofName? (fun f v => .flag f v.truth) i.flags).reverse.findSome?
            given?).or
          ((namedChanges Register.ofName? (fun r n => .register r (BitVec.ofInt 8 n))
            i.registers).reverse.findSome? given?)).or
        ([.mask (BitVec.ofInt 8 i.mask), .sp (BitVec.ofInt 16 i.sp),
          .pc (BitVec.ofInt 16 i.pc)].findSome? given?)).getD (part {}) := by
  rw [State.foldl_apply h, changes_eq, List.reverse_append, List.reverse_append,
    List.findSome?_append, List.findSome?_append, Option.or_assoc]
  rfl

theorem pc_changes (i : InitialState) :
    (i.changes.foldl State.apply {}).pc = BitVec.ofInt 16 i.pc := by
  rw [part_changes State.pc Change.pc? (fun s c => by cases c <;> rfl),
    findSome?_namedChanges_other (fun _ _ => rfl), findSome?_namedChanges_other (fun _ _ => rfl)]
  rfl

theorem sp_changes (i : InitialState) :
    (i.changes.foldl State.apply {}).sp = BitVec.ofInt 16 i.sp := by
  rw [part_changes State.sp Change.sp? (fun s c => by cases c <;> rfl),
    findSome?_namedChanges_other (fun _ _ => rfl), findSome?_namedChanges_other (fun _ _ => rfl)]
  rfl

theorem mask_changes (i : InitialState) :
    (i.changes.foldl State.apply {}).mask = BitVec.ofInt 8 i.mask := by
  rw [part_changes State.mask Change.mask? (fun s c => by cases c <;> rfl),
    findSome?_namedChanges_other (fun _ _ => rfl), findSome?_namedChanges_other (fun _ _ => rfl)]
  rfl

theorem register_changes (i : InitialState) (r : Register) :
    (i.changes.foldl State.apply {}).registers.get r =
      BitVec.ofInt 8 ((lastNamed? r.name i.registers).getD 0) := by
  rw [part_changes (fun s => s.registers.get r) (Change.register? r) (State.register_apply r),
    findSome?_namedChanges_other (fun _ _ => rfl),
    findSome?_namedChanges (fun _ => Register.ofName?_eq_some) (fun _ _ => rfl)]
  cases lastNamed? r.name i.registers with
  | none => cases r <;> rfl
  | some n => rfl

theorem flag_changes (i : InitialState) (f : Flag) :
    (i.changes.foldl State.apply {}).flags.get f =
      ((lastNamed? f.name i.flags).map Value.truth).getD false := by
  rw [part_changes (fun s => s.flags.get f) (Change.flag? f) (State.flag_apply f),
    findSome?_namedChanges (fun _ => Flag.ofName?_eq_some) (fun _ _ => rfl),
    findSome?_namedChanges_other (fun _ _ => rfl)]
  cases lastNamed? f.name i.flags with
  | none => cases f <;> rfl
  | some v => rfl

/-- A name that nothing has is none of the names. -/
theorem isNone_find?_name {ρ : Type} (name : ρ → String) (xs : List ρ) (n : String) :
    (xs.find? fun x => name x == n).isNone = true ↔ n ∉ xs.map name := by
  rw [Option.isNone_iff_eq_none, List.find?_eq_none, List.mem_map]
  constructor
  · rintro h ⟨x, hx, rfl⟩
    exact h x hx (beq_self_eq_true _)
  · intro h x hx hn
    exact h ⟨x, hx, beq_iff_eq.1 hn⟩

/-- What is said of entries whose names stand for nothing is said of the strangers. -/
theorem map_strangers {α ρ : Type} {of? : String → Option ρ} {known : List String}
    (hknown : ∀ n, (of? n).isNone = true ↔ n ∉ known) (say : String → String)
    (es : List (String × α)) :
    ((es.filter fun e => (of? (Text.upperName e.1)).isNone).map fun e => say e.1) =
      (strangers known es).map say := by
  have hnone : (fun e : String × α => (of? (Text.upperName e.1)).isNone) =
      fun e => decide (Text.upperName e.1 ∉ known) := by
    funext e
    rw [Bool.eq_iff_iff, hknown, decide_eq_true_iff]
  rw [strangers, List.filter_map, List.map_map, hnone]
  rfl

theorem warnings_eq (i : InitialState) : i.warnings =
    ((strangers (Register.all.map Register.name) i.registers).map fun name =>
      "Unknown register '" ++ name ++ "' in initial_state, ignored") ++
    ((strangers (Flag.all.map Flag.name) i.flags).map fun name =>
      "Unknown flag '" ++ name ++ "' in initial_state, ignored") := by
  rw [← map_strangers (isNone_find?_name Register.name Register.all),
    ← map_strangers (isNone_find?_name Flag.name Flag.all)]
  rfl

end InitialState

end Config

end Lab8085
