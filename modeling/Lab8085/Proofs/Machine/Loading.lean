/-
  Lab8085.Proofs.Machine.Loading

  Numbers and programs placed in memory, also where they do not fit.

  Placing goes on as long as the machine takes the numbers (`Machine.Takes`), and what it has
  written by then stays.  So the numbers that are written are the longest part at the beginning
  of the list that fits; `Machine.room` counts them in the order of the writes, and
  `isGreatest_room` says that no longer part fits.  What is written is the placing of that part
  alone (`place_take_room`), which cannot fail; from there on the law of placed regions applies.

  A source is loaded by placing its code.  It is assembled before anything is placed, so a
  source that is refused leaves everything as it was.
-/
import Lab8085.Proofs.Config.Building
import Lab8085.Proofs.Machine.Script
import Mathlib.Order.Bounds.Defs

namespace Lab8085

namespace Machine

/-! ## How much fits -/

/-- Memory is installed at an address. -/
def Installed (m : Machine) (address : Int) : Prop :=
  0 ≤ address ∧ address < m.size

/-- A machine takes a number at an address: memory is installed there, and the number is a
    byte. -/
def Takes (m : Machine) (address v : Int) : Prop :=
  m.Installed address ∧ 0 ≤ v ∧ v ≤ 0xFF

instance (m : Machine) (address : Int) : Decidable (m.Installed address) :=
  inferInstanceAs (Decidable (_ ∧ _))

instance (m : Machine) (address v : Int) : Decidable (m.Takes address v) :=
  inferInstanceAs (Decidable (_ ∧ _))

/-- The first `k` numbers of a list fit from an address on: there are so many, and each is taken
    at its place. -/
def TakesFirst (m : Machine) (address : Int) (d : List Int) (k : Nat) : Prop :=
  k ≤ d.length ∧ ∀ i (h : i < d.length), i < k → m.Takes (address + i) d[i]

/-- How many numbers of a list are taken from an address on, up to the first that is not. -/
def room (m : Machine) (address : Int) : List Int → Nat
  | [] => 0
  | v :: vs => if m.Takes address v then m.room (address + 1) vs + 1 else 0

theorem has_iff_installed (m : Machine) (address : Int) :
    m.memory.has address = true ↔ m.Installed address := by
  simp only [Memory.has, Bool.and_eq_true, decide_eq_true_eq]
  exact Iff.rfl

theorem byteOfInt_ok {v : Int} (hv : 0 ≤ v ∧ v ≤ 0xFF) : byteOfInt v = .ok (BitVec.ofInt 8 v) :=
  if_pos hv

theorem byteOfInt_error {v : Int} (hv : ¬(0 ≤ v ∧ v ≤ 0xFF)) :
    byteOfInt v = .error (.notByte (.int v)) :=
  if_neg hv

variable {m : Machine} {address : Int}

/-- One more number at the beginning fits if it is taken, and the others fit behind it. -/
theorem takesFirst_cons {v : Int} {vs : List Int} {k : Nat} :
    m.TakesFirst address (v :: vs) (k + 1) ↔
      m.Takes address v ∧ m.TakesFirst (address + 1) vs k := by
  constructor
  · rintro ⟨hlen, htakes⟩
    have hfirst : m.Takes (address + (0 : Nat)) v :=
      htakes 0 (Nat.succ_pos _) (Nat.succ_pos k)
    refine ⟨by simpa using hfirst, Nat.le_of_succ_le_succ hlen, fun i hi hik => ?_⟩
    have hnext : address + 1 + i = address + (i + 1 : Nat) := by omega
    rw [hnext]
    exact htakes (i + 1) (Nat.succ_lt_succ hi) (Nat.succ_lt_succ hik)
  · rintro ⟨hfirst, hlen, htakes⟩
    refine ⟨Nat.succ_le_succ hlen, fun i hi hik => ?_⟩
    cases i with
    | zero => simpa using hfirst
    | succ i =>
        have hnext : address + (i + 1 : Nat) = address + 1 + i := by omega
        rw [hnext]
        exact htakes i (Nat.lt_of_succ_lt_succ hi) (Nat.lt_of_succ_lt_succ hik)

theorem takesFirst_zero (d : List Int) : m.TakesFirst address d 0 :=
  ⟨Nat.zero_le _, fun _ _ h => absurd h (Nat.not_lt_zero _)⟩

/-- What is taken one after the other is the longest part that fits. -/
theorem isGreatest_room (d : List Int) :
    IsGreatest {k | m.TakesFirst address d k} (m.room address d) := by
  induction d generalizing address with
  | nil => exact ⟨takesFirst_zero [], fun k hk => hk.1⟩
  | cons v vs ih =>
      obtain ⟨hfits, hgreatest⟩ := @ih (address + 1)
      rw [room]
      split
      · next htakes =>
        refine ⟨takesFirst_cons.2 ⟨htakes, hfits⟩, fun k hk => ?_⟩
        cases k with
        | zero => exact Nat.zero_le _
        | succ k => exact Nat.succ_le_succ (hgreatest (takesFirst_cons.1 hk).2)
      · next htakes =>
        refine ⟨takesFirst_zero _, fun k hk => ?_⟩
        cases k with
        | zero => exact Nat.le_refl 0
        | succ k => exact absurd (takesFirst_cons.1 hk).1 htakes

/-! ## What is placed -/

/-- The machine with a number put at an address. -/
def putNumber (m : Machine) (address v : Int) : Machine :=
  { m with memory := m.memory.put address.toNat (BitVec.ofInt 8 v) }

/-- A number that is taken is written, and the others are placed behind it. -/
theorem place_of_takes {v : Int} (h : m.Takes address v) (vs : List Int) :
    m.place address (v :: vs) = (m.putNumber address v).place (address + 1) vs := by
  rw [place, if_pos ((m.has_iff_installed address).2 h.1), byteOfInt_ok h.2]
  rfl

/-- The complaint about a number that is not taken: the address comes first. -/
def refusal (m : Machine) (address v : Int) : BusError :=
  if m.Installed address then .notByte (.int v) else .unmapped address

/-- A number that is not taken ends the placing. -/
theorem place_of_not_takes {v : Int} (h : ¬m.Takes address v) (vs : List Int) :
    m.place address (v :: vs) = (m, some (m.refusal address v)) := by
  by_cases hin : m.Installed address
  · have hbyte : ¬(0 ≤ v ∧ v ≤ 0xFF) := fun hv => h ⟨hin, hv⟩
    rw [place, if_pos ((m.has_iff_installed address).2 hin), byteOfInt_error hbyte, refusal,
      if_pos hin]
  · rw [place, if_neg fun hhas => hin ((m.has_iff_installed address).1 hhas), refusal, if_neg hin]

theorem size_putNumber (m : Machine) (address v : Int) :
    (m.putNumber address v).size = m.size :=
  Memory.size_put _ _ _

/-- Only the size of the memory matters for what is taken. -/
theorem takes_congr {m n : Machine} (h : n.size = m.size) (address v : Int) :
    n.Takes address v ↔ m.Takes address v := by
  rw [Takes, Takes, Installed, Installed, h]

theorem room_congr {m n : Machine} (h : n.size = m.size) (address : Int) (d : List Int) :
    n.room address d = m.room address d := by
  induction d generalizing address with
  | nil => rfl
  | cons v vs ih => simp only [room, takes_congr h, ih]

theorem refusal_congr {m n : Machine} (h : n.size = m.size) (address v : Int) :
    n.refusal address v = m.refusal address v := by
  have hinstalled : n.Installed address ↔ m.Installed address := by
    rw [Installed, Installed, h]
  by_cases hin : m.Installed address
  · rw [refusal, refusal, if_pos hin, if_pos (hinstalled.2 hin)]
  · rw [refusal, refusal, if_neg hin, if_neg (mt hinstalled.1 hin)]

/-- What a placing writes is the part that fits; that part alone is placed without complaint. -/
theorem place_take_room (m : Machine) (address : Int) (d : List Int) :
    m.place address (d.take (m.room address d)) = ((m.place address d).1, none) := by
  induction d generalizing m address with
  | nil => rfl
  | cons v vs ih =>
      rw [room]
      split
      · next htakes =>
        have hroom := room_congr (m.size_putNumber address v) (address + 1) vs
        rw [List.take_succ_cons, place_of_takes htakes, place_of_takes htakes, ← hroom]
        exact ih _ _
      · next htakes =>
        rw [place_of_not_takes htakes]
        rfl

/-- A placing ends with the complaint about the first number that does not fit. -/
theorem complaint_place (m : Machine) (address : Int) (d : List Int) :
    (m.place address d).2 =
      d[m.room address d]?.map fun v => m.refusal (address + m.room address d) v := by
  induction d generalizing m address with
  | nil => rfl
  | cons v vs ih =>
      rw [room]
      split
      · next htakes =>
        have hsize := m.size_putNumber address v
        have hnext : address + 1 + (m.room (address + 1) vs : Int) =
            address + (m.room (address + 1) vs + 1 : Nat) := by omega
        rw [place_of_takes htakes, ih, room_congr hsize, hnext, List.getElem?_cons_succ]
        simp only [refusal_congr hsize]
      · next htakes =>
        rw [place_of_not_takes htakes]
        simp

/-- Numbers of a list were placed from an address on, as many as fit; `k` is how many, `n` the
    machine afterwards and `e` the complaint, if there is one. -/
structure Placed (m : Machine) (address : Int) (d : List Int) (k : Nat) (n : Machine)
    (e : Option BusError) : Prop where
  longest : IsGreatest {j | m.TakesFirst address d j} k
  /-- The first `k` numbers are in memory; all other addresses and all but the memory stay. -/
  laid : m.Laid [⟨address, d.take k⟩] n
  complete : e = none ↔ k = d.length
  /-- Where the memory ends, the complaint is about the address, whatever the number is. -/
  unmapped : k < d.length → ¬m.Installed (address + k) → e = some (.unmapped (address + k))
  notByte : ∀ v, d[k]? = some v → m.Installed (address + k) →
    ¬(0 ≤ v ∧ v ≤ 0xFF) ∧ e = some (.notByte (.int v))

theorem place_placed (m : Machine) (address : Int) (d : List Int) :
    m.Placed address d (m.room address d) (m.place address d).1 (m.place address d).2 := by
  have hgreatest : IsGreatest {k | m.TakesFirst address d k} (m.room address d) := isGreatest_room d
  have hle : m.room address d ≤ d.length := hgreatest.1.1
  have hcomplaint := m.complaint_place address d
  refine ⟨hgreatest, place_laid (m.place_take_room address d), ?_, fun hlt hout => ?_,
    fun v hv hin => ⟨fun hbyte => ?_, ?_⟩⟩
  · rw [hcomplaint, Option.map_eq_none_iff, List.getElem?_eq_none_iff]
    exact ⟨fun h => Nat.le_antisymm hle h, fun h => h.ge⟩
  · rw [hcomplaint, List.getElem?_eq_getElem hlt, Option.map_some, refusal, if_neg hout]
  · -- otherwise one more number would fit
    obtain ⟨hlt, rfl⟩ := List.getElem?_eq_some_iff.1 hv
    have hmore : m.TakesFirst address d (m.room address d + 1) := by
      refine ⟨hlt, fun i hi hik => ?_⟩
      rcases Nat.lt_succ_iff_lt_or_eq.1 hik with hik | rfl
      · exact hgreatest.1.2 i hi hik
      · exact ⟨hin, hbyte⟩
    exact absurd (hgreatest.2 hmore) (Nat.not_succ_le_self _)
  · rw [hcomplaint, hv, Option.map_some, refusal, if_pos hin]

/-! ## What is read back -/

/-- Bytes that stand at consecutive addresses are read there. -/
theorem bytesAt_of_peek? {bs : List Byte}
    (h : ∀ i (hi : i < bs.length), m.peek? (address + i) = some bs[i]) :
    m.bytesAt address bs.length = .ok bs := by
  induction bs generalizing address with
  | nil => rfl
  | cons b bs ih =>
      have hfirst : m.peek? address = some b := by
        simpa using h 0 (Nat.succ_pos _)
      have hrest : m.bytesAt (address + 1) bs.length = .ok bs := by
        refine ih fun i hi => ?_
        have hnext : address + 1 + i = address + (i + 1 : Nat) := by omega
        rw [hnext]
        exact h (i + 1) (Nat.succ_lt_succ hi)
      rw [List.length_cons, bytesAt, hfirst]
      show (m.bytesAt (address + 1) bs.length).bind _ = _
      rw [hrest]
      rfl

/-- All numbers that were placed are read back. -/
theorem Placed.bytesAt {d : List Int} {n : Machine}
    (h : m.Placed address d d.length n none) :
    n.bytesAt address d.length = .ok (d.map (BitVec.ofInt 8)) ∧
      d.map (fun v => ((BitVec.ofInt 8 v).toNat : Int)) = d := by
  have hbyte : ∀ i (hi : i < d.length), 0 ≤ d[i] ∧ d[i] ≤ 0xFF := fun i hi =>
    (h.longest.1.2 i hi hi).2
  constructor
  · rw [← List.length_map (BitVec.ofInt 8)]
    refine bytesAt_of_peek? fun i hi => ?_
    rw [List.length_map] at hi
    have hnumber := h.laid.number (address + i)
    have hplace : address + (i : Int) - address = i := by omega
    have hfrom : address ≤ address + (i : Int) :=
      Int.le_add_of_nonneg_right (Int.natCast_nonneg i)
    have hlast (p : Config.Preload) (k : Int) : Config.lastAt? [p] k = p.at? k := by
      simp [Config.lastAt?]
    rw [hlast, Config.Preload.at?, if_pos hfrom, hplace, Int.toNat_natCast,
      List.take_length, List.getElem?_eq_getElem hi, Option.some_or] at hnumber
    obtain ⟨b, hb, hbv⟩ := Option.map_eq_some_iff.1 hnumber
    rw [hb, List.getElem_map, ← hbv, BitVec.ofInt_natCast, BitVec.ofNat_toNat, BitVec.setWidth_eq]
  · conv => rhs; rw [← List.map_id d]
    refine List.map_congr_left fun v hv => ?_
    obtain ⟨i, hi, rfl⟩ := List.getElem_of_mem hv
    have hv := hbyte i hi
    rw [BitVec.toNat_ofInt, id]
    omega

end Machine

/-! ## Commands -/

namespace Machine

/-- Values that are integers are placed as these are. -/
theorem placeGiven_int (m : Machine) (address : Int) (places : Nat) (d : List Int) :
    m.placeGiven (.int address) places (d.map .int) = m.place (address + places) d := by
  induction d generalizing m places with
  | nil => rfl
  | cons v vs ih =>
      have hnext : address + places + 1 = address + ((places + 1 : Nat) : Int) := by omega
      rw [List.map_cons, placeGiven, place]
      simp only [shifted, Value.asInt?]
      split
      · by_cases hv : 0 ≤ v ∧ v ≤ 0xFF
        · rw [byteOfInt_ok hv, hnext]
          simp only [byteOf, Value.asInt?, if_pos hv]
          exact ih _ _
        · rw [byteOfInt_error hv]
          simp only [byteOf, Value.asInt?, if_neg hv]
      · rfl

end Machine

namespace Monitor

open Run

/-- How a command ends that placed numbers: with its answer, or with the complaint. -/
def outcome {α : Type} (x : α) : Option BusError → Except (Fault Failure) α
  | none => .ok x
  | some e => .error (.bus e)

variable (notify : Event → Act Unit) (m : Machine) (t : Desk) (address : Int)

theorem place_eq (d : List Int) : place (.int address) (d.map .int) (m, t) =
    ended (outcome () (m.place address d).2) (m.place address d).1 t := by
  have hplace := m.placeGiven_int address 0 d
  rw [Int.natCast_zero, Int.add_zero] at hplace
  simp only [place, hplace]
  cases m.place address d with
  | mk n e => cases e <;> rfl

theorem perform_place_eq (d : List Int) :
    perform notify (.place (.int address) (d.map .int)) (m, t) =
      ended (outcome .done (m.place address d).2) (m.place address d).1 t := by
  simp only [perform, Bind.bind, EStateM.bind, place_eq]
  cases m.place address d with
  | mk n e => cases e <;> rfl

/-- Bytes are asked for without any change. -/
theorem perform_bytes_eq {length : Nat} {bs : List Byte}
    (h : m.bytesAt address length = .ok bs) :
    perform notify (.bytes (.int address) length) (m, t) = .ok (.bytes bs) (m, t) := by
  have hgiven : m.bytesGiven (.int address) (length : Int).toNat = .ok bs := by
    rw [Int.toNat_natCast, Machine.bytesGiven]
    split
    · next hzero =>
      rw [hzero] at h
      exact h
    · exact h
  simp only [perform, Bind.bind, EStateM.bind, Run.machine, hgiven]
  rfl

/-- A source that is refused is not loaded at all. -/
theorem perform_loadSource_error {source : String} {x : AssemblyError}
    (h : Assembly.compile source address = .error x) :
    perform notify (.loadSource source (.int address)) (m, t) =
      .error (.raised (.assembly x)) (m, t) := by
  have hgiven : Assembly.compileGiven Catalog.standard source (.int address) =
      .error (.assembly x) := by
    rw [Assembly.compile] at h
    simp only [Assembly.compileGiven, Value.asInt?, h]
    rfl
  simp only [perform, loadSource, hgiven, orFail, Bind.bind, EStateM.bind]
  rfl

/-- A source that assembles is loaded by placing its code. -/
theorem perform_loadSource_ok {source : String} {a : Assembly}
    (h : Assembly.compile source address = .ok a) :
    let d := a.code.map fun b => (b.toNat : Int)
    perform notify (.loadSource source (.int address)) (m, t) =
      ended (outcome (.assembly a) (m.place address d).2) (m.place address d).1 t := by
  intro d
  have hgiven : Assembly.compileGiven Catalog.standard source (.int address) = .ok a := by
    rw [Assembly.compile] at h
    simp only [Assembly.compileGiven, Value.asInt?, h]
    rfl
  have hvalues : (a.code.map fun b => Value.int b.toNat) = d.map .int := by
    rw [List.map_map]
    rfl
  simp only [perform, loadSource, hgiven, orFail, Bind.bind, EStateM.bind, Pure.pure, EStateM.pure,
    hvalues, place_eq]
  cases m.place address d with
  | mk n e => cases e <;> rfl

/-- Numbers and programs are placed as far as they fit, and nothing else happens. -/
theorem place_longest :
    (∀ d : List Int, ∃ k n e, m.Placed address d k n e ∧ m.place address d = (n, e) ∧
      perform notify (.place (.int address) (d.map .int)) (m, t) = ended (outcome .done e) n t ∧
      -- what was placed without complaint is read back
      (e = none → ∃ bs : List Byte, bs.map (fun b => (b.toNat : Int)) = d ∧
        perform notify (.bytes (.int address) d.length) (n, t) = .ok (.bytes bs) (n, t))) ∧
    ∀ source : String,
      -- a source that is refused leaves the machine and those who watch it as they were
      (∀ x, Assembly.compile source address = .error x →
        perform notify (.loadSource source (.int address)) (m, t) =
          .error (.raised (.assembly x)) (m, t) ∧
        Config.loadSource m source address = .error (.assembly x)) ∧
      -- loading any other is placing its code
      ∀ a, Assembly.compile source address = .ok a → ∃ k n e,
        m.Placed address (a.code.map fun b => (b.toNat : Int)) k n e ∧
        perform notify (.place (.int address) (a.code.map fun b => .int b.toNat)) (m, t) =
          ended (outcome .done e) n t ∧
        perform notify (.loadSource source (.int address)) (m, t) =
          ended (outcome (.assembly a) e) n t ∧
        n.state = m.state ∧ n.log = m.log ∧
        Config.loadSource m source address =
          match e with
          | none => .ok (n, a)
          | some e => .error (.bus e) := by
  constructor
  · intro d
    have hplaced := m.place_placed address d
    refine ⟨_, _, _, hplaced, rfl, perform_place_eq notify m t address d, fun hnone => ?_⟩
    have hall : m.room address d = d.length := hplaced.complete.1 hnone
    rw [hall, hnone] at hplaced
    obtain ⟨hbytes, hnumbers⟩ := hplaced.bytesAt
    refine ⟨d.map (BitVec.ofInt 8), ?_, perform_bytes_eq notify _ t address hbytes⟩
    rw [List.map_map]
    exact hnumbers
  · intro source
    refine ⟨fun x hx => ⟨perform_loadSource_error notify m t address hx, ?_⟩, fun a ha => ?_⟩
    · rw [Config.loadSource, hx]
    · let d := a.code.map fun b => (b.toNat : Int)
      have hplaced := m.place_placed address d
      have hrest := hplaced.laid.rest
      have hvalues : (a.code.map fun b => Value.int b.toNat) = d.map .int := by
        rw [List.map_map]
        rfl
      refine ⟨_, _, _, hplaced, ?_, perform_loadSource_ok notify m t address ha, ?_, ?_, ?_⟩
      · rw [hvalues]
        exact perform_place_eq notify m t address d
      · rw [hrest]
      · rw [hrest]
      · rw [Config.loadSource, ha]
        show (Config.place m address d >>= _) = _
        rw [Config.place]
        cases m.place address d with
        | mk n e => cases e <;> rfl

end Monitor

end Lab8085
