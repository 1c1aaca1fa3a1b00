/-
  Lab8085.Proofs.Config.Reading

  How the reading of a configuration ends, whatever the document holds.

  A reading ends with a value of which something is known, or with a failure that the document
  explains (`Fault`): a complaint about the configuration; an integer with too many digits for the
  message that shows it; a `memory` that cannot be gone through; or something true that is no
  mapping where the initial state, its registers or its flags belong.  One lemma for each reading
  function says so (`Ends`), and the lemmas go together as the functions do.  What is carried from
  part to part is that every integer in the part stands in the document (`Known`).
-/
import Lab8085.Config.Reading
import Mathlib.Tactic.Common

namespace Lab8085

/-! ## Integers in values -/

namespace Value

/-- An integer stands somewhere in a value. -/
inductive Has (n : Int) : Value → Prop
  | int : Has n (.int n)
  | marked {place : Nat × Nat} {v : Value} (h : Has n v) : Has n (.marked place v)
  | item {v : Value} {vs : List Value} (hv : v ∈ vs) (h : Has n v) : Has n (.list vs)
  | member {v : Value} {vs : List Value} (hv : v ∈ vs) (h : Has n v) : Has n (.set vs)
  | first {a b : Value} (h : Has n a) : Has n (.pair a b)
  | second {a b : Value} (h : Has n b) : Has n (.pair a b)
  | key {e : Value × Value} {es : List (Value × Value)} (he : e ∈ es) (h : Has n e.1) :
      Has n (.map es)
  | value {e : Value × Value} {es : List (Value × Value)} (he : e ∈ es) (h : Has n e.2) :
      Has n (.map es)

theorem Has.of_bare {n : Int} {v : Value} (h : v.bare.Has n) : v.Has n := by
  induction v using Value.bare.induct with
  | case1 place v ih => exact .marked (ih h)
  | case2 v hv =>
      rw [bare] at h
      · exact h
      · exact hv

mutual

/-- A value that cannot be shown holds an integer with too many digits. -/
theorem exists_tooLong (path : List (Nat × Nat)) : (v : Value) → v.showableIn path = false →
    ∃ n, v.Has n ∧ Number.tooLong n = true
  | .int n => fun h => ⟨n, .int, (Bool.not_eq_false' _).mp h⟩
  | .list vs => fun h =>
      let ⟨_, hv, n, hn, hlong⟩ := exists_tooLong_items path vs h
      ⟨n, .item hv hn, hlong⟩
  | .set vs => fun h =>
      let ⟨_, hv, n, hn, hlong⟩ := exists_tooLong_items path vs h
      ⟨n, .member hv hn, hlong⟩
  | .pair a b => fun h => by
      rcases Bool.and_eq_false_iff.1 h with ha | hb
      · obtain ⟨n, hn, hlong⟩ := exists_tooLong path a ha
        exact ⟨n, .first hn, hlong⟩
      · obtain ⟨n, hn, hlong⟩ := exists_tooLong path b hb
        exact ⟨n, .second hn, hlong⟩
  | .map es => fun h => by
      obtain ⟨e, he, n, hn | hn, hlong⟩ := exists_tooLong_entries path es h
      · exact ⟨n, .key he hn, hlong⟩
      · exact ⟨n, .value he hn, hlong⟩
  | .marked place v => fun h =>
      let ⟨n, hn, hlong⟩ := exists_tooLong (place :: path) v (Bool.or_eq_false_iff.1 h).2
      ⟨n, .marked hn, hlong⟩
  | .null | .bool _ | .float _ | .text _ | .bytes _ | .date _ | .moment _ => nofun

theorem exists_tooLong_items (path : List (Nat × Nat)) : (vs : List Value) →
    showableItems path vs = false → ∃ v ∈ vs, ∃ n, v.Has n ∧ Number.tooLong n = true
  | [] => nofun
  | v :: vs => fun h => by
      rcases Bool.and_eq_false_iff.1 h with hv | hvs
      · exact ⟨v, List.mem_cons_self, exists_tooLong path v hv⟩
      · obtain ⟨w, hw, hn⟩ := exists_tooLong_items path vs hvs
        exact ⟨w, List.mem_cons_of_mem v hw, hn⟩

theorem exists_tooLong_entries (path : List (Nat × Nat)) : (es : List (Value × Value)) →
    showableEntries path es = false →
    ∃ e ∈ es, ∃ n, (e.1.Has n ∨ e.2.Has n) ∧ Number.tooLong n = true
  | [] => nofun
  | (k, v) :: es => fun h => by
      rcases Bool.and_eq_false_iff.1 h with hkv | hes
      · rcases Bool.and_eq_false_iff.1 hkv with hk | hv
        · obtain ⟨n, hn, hlong⟩ := exists_tooLong path k hk
          exact ⟨(k, v), List.mem_cons_self, n, .inl hn, hlong⟩
        · obtain ⟨n, hn, hlong⟩ := exists_tooLong path v hv
          exact ⟨(k, v), List.mem_cons_self, n, .inr hn, hlong⟩
      · obtain ⟨e, he, hn⟩ := exists_tooLong_entries path es hes
        exact ⟨e, List.mem_cons_of_mem _ he, hn⟩

end

/-- A value that is nothing to go through: no list, set, pair, text, bytes or mapping. -/
def Single (v : Value) : Prop :=
  match v.bare with
  | .list _ | .set _ | .pair .. | .text _ | .bytes _ | .map _ => False
  | _ => True

end Value

namespace Config

/-! ## How a reading ends -/

/-- What a document does to make its reading fail. -/
inductive Fault (entries : List (Value × Value)) : Failure → Prop
  /-- The configuration is complained about. -/
  | config (e : Error) : Fault entries (.config e)
  /-- A message would have to show an integer with too many digits. -/
  | tooLong {n : Int} (hn : (Value.map entries).Has n) (hlong : Number.tooLong n = true) :
      Fault entries .tooLongToShow
  /-- The memory is nothing that could be gone through. -/
  | memory {v : Value} (hv : lookup? entries "memory" = some v) (hsingle : v.Single) :
      Fault entries .wrongKind
  /-- The initial state is true and no mapping. -/
  | state {v : Value} (hv : lookup? entries "initial_state" = some v) (htrue : v.truth = true)
      (hmap : v.entries? = none) : Fault entries .noSuchPart
  /-- The registers or flags of the initial state are true and no mapping. -/
  | part {w v : Value} {es : List (Value × Value)} {name : String}
      (hw : lookup? entries "initial_state" = some w) (hes : w.entries? = some es)
      (hname : name = "registers" ∨ name = "flags") (hv : lookup? es name = some v)
      (htrue : v.truth = true) (hmap : v.entries? = none) : Fault entries .noSuchPart

/-- A part of a reading ends with a value that has a property, or with a failure that the document
    explains. -/
def Ends {α : Type} (entries : List (Value × Value)) (x : Except Failure α) (P : α → Prop) : Prop :=
  match x with
  | .ok a => P a
  | .error f => Fault entries f

section Ends

variable {α β : Type} {entries : List (Value × Value)} {P : α → Prop} {Q : β → Prop}

theorem Ends.ok {a : α} (h : P a) : Ends entries (.ok a) P := h

theorem Ends.config (e : Error) : Ends entries (.error (.config e)) P := Fault.config e

theorem Ends.bind {x : Except Failure α} {f : α → Except Failure β} (hx : Ends entries x P)
    (hf : ∀ a, P a → Ends entries (f a) Q) : Ends entries (x >>= f) Q := by
  cases x with
  | error e => exact hx
  | ok a => exact hf a hx

end Ends

/-- Every integer in a value stands in the document. -/
def Known (entries : List (Value × Value)) (v : Value) : Prop :=
  ∀ n, v.Has n → (Value.map entries).Has n

section Reading

variable {entries : List (Value × Value)}

namespace Known

theorem bare {v : Value} (h : Known entries v) : Known entries v.bare :=
  fun n hn => h n hn.of_bare

theorem null : Known entries .null := nofun

theorem map {v : Value} {es : List (Value × Value)} (h : Known entries v)
    (hes : v.entries? = some es) : Known entries (.map es) := by
  rw [Value.entries?] at hes
  split at hes
  · next hbare =>
    cases hes
    exact hbare ▸ h.bare
  · cases hes

theorem lookup {v : Value} {es : List (Value × Value)} {name : String}
    (h : Known entries (.map es)) (hv : lookup? es name = some v) : Known entries v := by
  obtain ⟨e, he, rfl⟩ := Option.map_eq_some_iff.1 hv
  exact fun n hn => h n (.value (List.mem_of_find?_eq_some he) hn)

theorem getD {es : List (Value × Value)} (h : Known entries (.map es)) (name : String) :
    Known entries ((lookup? es name).getD .null) := by
  cases hv : lookup? es name with
  | none => exact null
  | some v => exact h.lookup hv

theorem nil : Known entries (.map []) := by
  intro n hn
  cases hn with
  | key he _ => cases he
  | value he _ => cases he

theorem tail {e : Value × Value} {es : List (Value × Value)} (h : Known entries (.map (e :: es))) :
    Known entries (.map es) := by
  intro n hn
  cases hn with
  | key he hn => exact h n (.key (List.mem_cons_of_mem e he) hn)
  | value he hn => exact h n (.value (List.mem_cons_of_mem e he) hn)

/-- A part of the document that cannot be shown explains a message that fails. -/
theorem fault {v : Value} (h : Known entries v) (hshow : ¬v.showable = true) :
    Fault entries .tooLongToShow := by
  obtain ⟨n, hn, hlong⟩ := Value.exists_tooLong [] v (Bool.not_eq_true _ ▸ hshow)
  exact .tooLong (h n hn) hlong

end Known

theorem complaint_ends {α : Type} {P : α → Prop} {v : Value} (h : Known entries v) (e : Error) :
    Ends entries (.error (complaint e v)) P := by
  rw [complaint]
  split
  · exact Fault.config e
  · next hshow => exact h.fault hshow

theorem integer_ends {v : Value} (h : Known entries v) (key : String) :
    Ends entries (integer key v) fun _ => True := by
  rw [integer]
  split
  · exact .ok trivial
  · exact complaint_ends h _

theorem integerAt_ends {es : List (Value × Value)} (h : Known entries (.map es))
    (name key : String) (default : Int) :
    Ends entries (integerAt es name key default) fun _ => True := by
  rw [integerAt]
  split
  · next hv => exact integer_ends (h.lookup hv) key
  · exact .ok trivial

theorem bytes_ends {vs : List Value} (h : ∀ v ∈ vs, Known entries v) (key : String) :
    Ends entries (bytes key vs) fun ns => ∀ n ∈ ns, 0 ≤ n ∧ n ≤ 0xFF := by
  induction vs with
  | nil => exact .ok nofun
  | cons v vs ih =>
      have hv := h v List.mem_cons_self
      refine (integer_ends hv key).bind fun n _ => ?_
      split
      · next hn =>
        refine (ih fun w hw => h w (List.mem_cons_of_mem v hw)).bind fun ns hns => .ok ?_
        exact List.forall_mem_cons.2 ⟨hn, hns⟩
      · exact complaint_ends hv _

theorem byteList_ends {es : List (Value × Value)} (h : Known entries (.map es))
    (name key : String) :
    Ends entries (byteList key (lookup? es name)) fun ns => ∀ n ∈ ns, 0 ≤ n ∧ n ≤ 0xFF := by
  rw [byteList]
  split
  · next vs hvs =>
    refine bytes_ends (fun v hv => ?_) key
    cases hw : lookup? es name with
    | none =>
        rw [hw] at hvs
        cases hvs
        cases hv
    | some w =>
        rw [hw, Option.getD_some, Value.items?] at hvs
        split at hvs
        · next hbare =>
          cases hvs
          exact fun n hn => (h.lookup hw).bare n (hbare ▸ .item hv hn)
        · cases hvs
  · exact .config _

theorem program_ends (h : Known entries (.map entries)) :
    Ends entries (program (lookup? entries "program")) fun _ => True := by
  unfold program
  split
  · exact .ok trivial
  · split
    · exact .config _
    · next es hes =>
      have hknown : Known entries (.map es) := by
        exact (h.getD "program").map hes
      dsimp only
      split
      · exact .config _
      · exact (integerAt_ends hknown _ _ _).bind fun _ _ => .ok trivial

/-- What is gone through is part of the document, or nothing that could be read as a mapping. -/
theorem elements_ends (h : Known entries (.map entries)) :
    Ends entries (elements ((lookup? entries "memory").getD (.list []))) fun vs =>
      ∀ v ∈ vs, v.entries? = none ∨ Known entries v := by
  cases hw : lookup? entries "memory" with
  | none => exact .ok nofun
  | some w =>
      have hknown := (h.lookup hw).bare
      rw [Option.getD_some, elements]
      split
      · next vs hbare => exact .ok fun v hv => .inr fun n hn => hknown n (hbare ▸ .item hv hn)
      · next vs hbare => exact .ok fun v hv => .inr fun n hn => hknown n (hbare ▸ .member hv hn)
      · next a b hbare =>
        rw [hbare] at hknown
        refine .ok fun v hv => .inr fun n hn => ?_
        rcases List.mem_cons.1 hv with rfl | hv
        · exact hknown n (.first hn)
        · obtain rfl := List.mem_singleton.1 hv
          exact hknown n (.second hn)
      · refine .ok fun v hv => .inl ?_
        obtain ⟨c, -, rfl⟩ := List.mem_map.1 hv
        rfl
      · refine .ok fun v hv => .inl ?_
        obtain ⟨b, -, rfl⟩ := List.mem_map.1 hv
        rfl
      · next es hbare =>
        refine .ok fun v hv => .inr fun n hn => ?_
        obtain ⟨e, he, rfl⟩ := List.mem_map.1 hv
        exact hknown n (hbare ▸ .key he hn)
      · refine Fault.memory hw ?_
        rw [Value.Single]
        split <;> simp_all

theorem preloads_ends {vs : List Value} (h : ∀ v ∈ vs, v.entries? = none ∨ Known entries v)
    (index : Nat) :
    Ends entries (preloads index vs) fun ps => ∀ p ∈ ps, ∀ n ∈ p.data, 0 ≤ n ∧ n ≤ 0xFF := by
  induction vs generalizing index with
  | nil => exact .ok nofun
  | cons v vs ih =>
      rw [preloads]
      split
      · next es hes =>
        have hknown : Known entries (.map es) := by
          rcases h v List.mem_cons_self with hnone | hv
          · cases hnone.symm.trans hes
          · exact hv.map hes
        refine (integer_ends (hknown.getD "address") _).bind fun address _ => ?_
        refine (byteList_ends hknown "data" _).bind fun data hdata => ?_
        refine (ih (fun w hw => h w (List.mem_cons_of_mem v hw)) _).bind fun ps hps => .ok ?_
        exact List.forall_mem_cons.2 ⟨hdata, hps⟩
      · exact .config _

/-- Where a mapping may be absent, only something true that is none makes the reading fail. -/
theorem optionalEntries_ends {v : Option Value}
    (h : ∀ w, v = some w → w.truth = true → w.entries? = none → Fault entries .noSuchPart) :
    Ends entries (optionalEntries v) fun es => es = [] ∨ ∃ w, v = some w ∧ w.entries? = some es := by
  cases v with
  | none => exact .ok (.inl rfl)
  | some w =>
      rw [optionalEntries]
      split
      · next htrue =>
        cases hes : w.entries? with
        | none => exact h w rfl htrue hes
        | some es => exact .ok (.inr ⟨w, rfl, hes⟩)
      · exact .ok (.inl rfl)

theorem name_ends {key : Value} (h : Known entries key) :
    Ends entries (name key) fun _ => True := by
  rw [name]
  split
  · exact .ok trivial
  · next hshow => exact h.fault hshow

theorem registers_ends {es : List (Value × Value)} (h : Known entries (.map es))
    (d : Dictionary String Int) : Ends entries (registers d es) fun _ => True := by
  induction es generalizing d with
  | nil => exact .ok trivial
  | cons e es ih =>
      refine (name_ends fun n hn => h n (.key List.mem_cons_self hn)).bind fun r _ => ?_
      refine (integer_ends (fun n hn => h n (.value List.mem_cons_self hn)) _).bind fun n _ => ?_
      exact ih h.tail _

theorem flags_ends {es : List (Value × Value)} (h : Known entries (.map es))
    (d : Dictionary String Value) : Ends entries (flags d es) fun _ => True := by
  induction es generalizing d with
  | nil => exact .ok trivial
  | cons e es ih =>
      refine (name_ends fun n hn => h n (.key List.mem_cons_self hn)).bind fun f _ => ?_
      exact ih h.tail _

/-- The mapping of an optional part is known where its value is. -/
theorem known_optional {v : Option Value} {es : List (Value × Value)}
    (h : ∀ w, v = some w → Known entries w)
    (hes : es = [] ∨ ∃ w, v = some w ∧ w.entries? = some es) : Known entries (.map es) := by
  rcases hes with rfl | ⟨w, hw, hes⟩
  · exact .nil
  · exact (h w hw).map hes

theorem initialState_ends (h : Known entries (.map entries)) :
    Ends entries (initialState (lookup? entries "initial_state")) fun _ => True := by
  rw [initialState]
  refine (optionalEntries_ends fun w hw htrue hmap => .state hw htrue hmap).bind fun es hes => ?_
  have hknown : Known entries (.map es) := known_optional (fun w hw => h.lookup hw) hes
  -- an initial state that is absent or not true has no parts that could be at fault
  have hpart : ∀ name, name = "registers" ∨ name = "flags" →
      ∀ w, lookup? es name = some w → w.truth = true → w.entries? = none →
        Fault entries .noSuchPart := by
    intro name hname w hw htrue hmap
    rcases hes with rfl | ⟨state, hstate, hes⟩
    · cases hw
    · exact .part hstate hes hname hw htrue hmap
  refine (integerAt_ends hknown _ _ _).bind fun pc _ => ?_
  refine (integerAt_ends hknown _ _ _).bind fun sp _ => ?_
  refine (integerAt_ends hknown _ _ _).bind fun mask _ => ?_
  refine (optionalEntries_ends (hpart "registers" (.inl rfl))).bind fun rs hrs => ?_
  refine (registers_ends (known_optional (fun w hw => hknown.lookup hw) hrs) _).bind fun rd _ => ?_
  refine (optionalEntries_ends (hpart "flags" (.inr rfl))).bind fun fs hfs => ?_
  exact (flags_ends (known_optional (fun w hw => hknown.lookup hw) hfs) _).bind fun fd _ =>
    .ok trivial

/-- The memory size is an integer, and what is placed in memory are bytes. -/
def Checked (s : System) : Prop :=
  (∃ n, s.memorySize = .int n) ∧ ∀ p ∈ s.memory, ∀ n ∈ p.data, 0 ≤ n ∧ n ≤ 0xFF

theorem ofEntries_ends (entries : List (Value × Value)) :
    Ends entries (ofEntries entries) Checked := by
  have h : Known entries (.map entries) := fun _ hn => hn
  rw [ofEntries]
  refine (integerAt_ends h _ _ _).bind fun size _ => ?_
  refine (program_ends h).bind fun p _ => ?_
  refine (elements_ends h).bind fun vs hvs => ?_
  refine (preloads_ends hvs 0).bind fun ps hps => ?_
  exact (initialState_ends h).bind fun i _ => .ok ⟨⟨size, rfl⟩, hps⟩

end Reading

/-! ## Documents with one part at fault -/

theorem lookup?_single (key name : String) (v : Value) :
    lookup? [(.text key, v)] name = if key = name then some v else none := by
  by_cases h : key = name
  · simp [lookup?, h]
  · simp [lookup?, h]

theorem ofEntries_memory {v : Value} {f : Failure} (h : elements v = .error f) :
    ofEntries [(.text "memory", v)] = .error f := by
  simp [ofEntries, integerAt, program, lookup?_single, h, bind, Except.bind]

theorem ofEntries_state {v : Value} {f : Failure} (h : initialState (some v) = .error f) :
    ofEntries [(.text "initial_state", v)] = .error f := by
  simp [ofEntries, integerAt, program, elements, Value.bare, preloads, lookup?_single, h, bind,
    Except.bind]

/-- The state in a mapping with one part fails as the part does. -/
theorem initialState_part {v : Value} {f : Failure} {name : String}
    (hname : name = "registers" ∨ name = "flags") (h : optionalEntries (some v) = .error f) :
    initialState (some (.map [(.text name, v)])) = .error f := by
  have hmap : optionalEntries (some (.map [(.text name, v)])) = .ok [(.text name, v)] := rfl
  have hnone : optionalEntries none = .ok [] := rfl
  rcases hname with rfl | rfl
  · simp [initialState, integerAt, lookup?_single, hmap, h, bind, Except.bind]
  · simp [initialState, integerAt, lookup?_single, registers, hmap, hnone, h, bind, Except.bind]

/-- Each defect needs no more than the part that is at fault. -/
theorem ofEntries_defects (v : Value) :
    (v.Single → ofEntries [(.text "memory", v)] = .error .wrongKind) ∧
    (v.truth = true → v.entries? = none →
      ofEntries [(.text "initial_state", v)] = .error .noSuchPart ∧
      ∀ name, name = "registers" ∨ name = "flags" →
        ofEntries [(.text "initial_state", .map [(.text name, v)])] = .error .noSuchPart) ∧
    (v.showable = false → integer? v = none →
      ofEntries [(.text "memory_size", v)] = .error .tooLongToShow) := by
  refine ⟨fun hv => ?_, fun htrue hmap => ?_, fun hshow hinteger => ?_⟩
  · refine ofEntries_memory ?_
    rw [Value.Single] at hv
    rw [elements]
    split <;> simp_all
  · have hpart : optionalEntries (some v) = .error .noSuchPart := by
      rw [optionalEntries, if_pos htrue, hmap]
    refine ⟨ofEntries_state ?_, fun name hname => ofEntries_state (initialState_part hname hpart)⟩
    rw [initialState, hpart]
    rfl
  · have hsize : integerAt [(.text "memory_size", v)] "memory_size" "memory_size" 0x10000 =
        .error .tooLongToShow := by
      simp [integerAt, lookup?_single, integer, hinteger, complaint, hshow]
    rw [ofEntries, hsize]
    rfl

/-- A document without the defects: no integer has too many digits, the memory can be gone through,
    and the initial state, its registers and its flags are mappings where they are true. -/
structure Sound (entries : List (Value × Value)) : Prop where
  digits : ∀ n, (Value.map entries).Has n → Number.tooLong n = false
  memory : ∀ v, lookup? entries "memory" = some v → ¬v.Single
  state : ∀ v, lookup? entries "initial_state" = some v → v.truth = true → v.entries? ≠ none
  part : ∀ w es, lookup? entries "initial_state" = some w → w.entries? = some es →
    ∀ name v, name = "registers" ∨ name = "flags" → lookup? es name = some v → v.truth = true →
      v.entries? ≠ none

theorem Sound.config {entries : List (Value × Value)} (h : Sound entries) {f : Failure}
    (hf : Fault entries f) : ∃ e, f = .config e := by
  cases hf with
  | config e => exact ⟨e, rfl⟩
  | tooLong hn hlong => cases hlong.symm.trans (h.digits _ hn)
  | memory hv hsingle => exact absurd hsingle (h.memory _ hv)
  | state hv htrue hmap => exact absurd hmap (h.state _ hv htrue)
  | part hw hes hname hv htrue hmap => exact absurd hmap (h.part _ _ hw hes _ _ hname hv htrue)

/-- A document is read as a configuration with bytes to place, or the failure is explained by the
    document; without the defects it is a complaint about the configuration. -/
theorem ofEntries_faults (entries : List (Value × Value)) :
    (∀ s, ofEntries entries = .ok s → Checked s) ∧
    (∀ f, ofEntries entries = .error f → Fault entries f) ∧
    (Sound entries → (∃ s, ofEntries entries = .ok s) ∨
      ∃ e, ofEntries entries = .error (.config e)) := by
  have hends := ofEntries_ends entries
  cases h : ofEntries entries with
  | ok s =>
      rw [h] at hends
      refine ⟨?_, nofun, fun _ => .inl ⟨s, rfl⟩⟩
      rintro _ ⟨⟩
      exact hends
  | error f =>
      rw [h] at hends
      refine ⟨nofun, ?_, fun hsound => .inr ?_⟩
      · rintro _ ⟨⟩
        exact hends
      · obtain ⟨e, rfl⟩ := hsound.config hends
        exact ⟨e, rfl⟩

/-- A list where the initial state belongs is neither read nor complained about. -/
theorem list_for_state : ¬((∃ s, ofEntries [(.text "initial_state", .list [.int 1])] = .ok s) ∨
    ∃ e, ofEntries [(.text "initial_state", .list [.int 1])] = .error (.config e)) := by
  have h : ofEntries [(.text "initial_state", .list [.int 1])] = .error .noSuchPart := rfl
  rw [h]
  rintro (⟨s, hs⟩ | ⟨e, he⟩)
  · cases hs
  · cases he

end Config

end Lab8085
