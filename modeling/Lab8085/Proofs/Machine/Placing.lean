/-
  Lab8085.Proofs.Machine.Placing

  Bytes placed in memory.

  `Memory.overlay` is memory with a list of bytes from an address on.  What it holds is one
  equation (`Memory.get?_overlay`), and from that equation follow the laws: bytes placed in
  disjoint ranges may be placed in either order, and a byte that is put among those placed is
  the placing of a changed list.  Placing values and loading a source are overlays that leave
  everything but the memory alone.
-/
import Lab8085.Proofs.Assembler.RoundTrip

namespace Lab8085

namespace Memory

/-- Memories of the same bytes are the same. -/
theorem ext_get? {m n : Memory} (h : ∀ a, m.get? a = n.get? a) : m = n := by
  obtain ⟨xs⟩ := m
  obtain ⟨ys⟩ := n
  exact congrArg Memory.mk (Array.ext_getElem? h)

/-- The memory with bytes from an address on. -/
def overlay (m : Memory) (a : Nat) : List Byte → Memory
  | [] => m
  | b :: bs => (m.put a b).overlay (a + 1) bs

@[simp] theorem size_overlay (m : Memory) (a : Nat) (bs : List Byte) :
    (m.overlay a bs).size = m.size := by
  induction bs generalizing m a with
  | nil => rfl
  | cons b bs ih => rw [overlay, ih, size_put]

/-- The bytes are there, and below and above them is what was there. -/
theorem get?_overlay {m : Memory} {a : Nat} {bs : List Byte} (hfits : a + bs.length ≤ m.size)
    (x : Nat) : (m.overlay a bs).get? x =
      if x < a then m.get? x else bs[x - a]?.or (m.get? x) := by
  induction bs generalizing m a with
  | nil =>
      rw [overlay, List.getElem?_nil, Option.none_or]
      split <;> rfl
  | cons b bs ih =>
      rw [List.length_cons] at hfits
      rw [overlay, ih (by rw [size_put]; omega), get?_put]
      rcases Nat.lt_trichotomy x a with hlt | rfl | hgt
      · have hne : ¬(x = a ∧ a < m.size) := fun h => absurd h.1 (Nat.ne_of_lt hlt)
        rw [if_pos (Nat.lt_succ_of_lt hlt), if_neg hne, if_pos hlt]
      · have hlast : x = x ∧ x < m.size := ⟨rfl, by omega⟩
        rw [if_pos (Nat.lt_succ_self x), if_pos hlast, if_neg (Nat.lt_irrefl x), Nat.sub_self]
        rfl
      · have hne : ¬(x = a ∧ a < m.size) := fun h => absurd h.1 (Nat.ne_of_gt hgt)
        obtain ⟨i, rfl⟩ : ∃ i, x = a + 1 + i := ⟨x - (a + 1), by omega⟩
        have hshift : a + 1 + i - a = i + 1 := by omega
        rw [if_neg (by omega), if_neg hne, if_neg (by omega), hshift, Nat.add_sub_cancel_left]
        rfl

variable {m : Memory} {a : Nat}

/-- Nothing changes below the bytes and above them. -/
theorem get?_overlay_outside {bs : List Byte} (hfits : a + bs.length ≤ m.size) {x : Nat}
    (hx : x < a ∨ a + bs.length ≤ x) : (m.overlay a bs).get? x = m.get? x := by
  rw [get?_overlay hfits]
  split
  · rfl
  · have houtside : bs[x - a]? = none := List.getElem?_eq_none (by omega)
    rw [houtside, Option.none_or]

/-- A byte in place of one of those laid over the memory. -/
theorem put_overlay {bs : List Byte} {i : Nat} (hi : i < bs.length)
    (hfits : a + bs.length ≤ m.size) (v : Byte) :
    (m.overlay a bs).put (a + i) v = m.overlay a (bs.set i v) := by
  apply ext_get?
  intro x
  rw [get?_put, get?_overlay hfits, get?_overlay (by rwa [List.length_set]), size_overlay,
    List.getElem?_set]
  by_cases hx : x < a
  · rw [if_neg (by omega), if_pos hx, if_pos hx]
  · obtain ⟨k, rfl⟩ : ∃ k, x = a + k := ⟨x - a, by omega⟩
    rw [if_neg hx, if_neg hx, Nat.add_sub_cancel_left]
    by_cases hk : i = k
    · subst hk
      rw [if_pos ⟨rfl, by omega⟩, if_pos rfl, if_pos hi]
      rfl
    · rw [if_neg (by omega), if_neg hk]

/-- Bytes of disjoint ranges are laid over memory in either order. -/
theorem overlay_comm {c : Nat} {xs ys : List Byte} (hdisjoint : a + xs.length ≤ c)
    (hfits : c + ys.length ≤ m.size) :
    (m.overlay a xs).overlay c ys = (m.overlay c ys).overlay a xs := by
  have hxs : a + xs.length ≤ m.size := by omega
  apply ext_get?
  intro i
  rw [get?_overlay (by rwa [size_overlay]), get?_overlay hxs,
    get?_overlay (by rwa [size_overlay]), get?_overlay hfits]
  by_cases hc : i < c
  · rw [if_pos hc, if_pos hc]
  · have houtside : xs[i - a]? = none := List.getElem?_eq_none (by omega)
    rw [if_neg hc, if_neg hc, if_neg (by omega), if_neg (by omega), houtside, Option.none_or,
      Option.none_or]

end Memory

namespace Machine

/-- A peek at an address of memory. -/
theorem peek?_natCast (m : Machine) (x : Nat) : m.peek? x = m.memory.get? x := by
  rw [peek?, if_pos (Int.natCast_nonneg x), Int.toNat_natCast]

/-- Bytes are placed by laying them over the memory. -/
theorem placeGiven_overlay (m : Machine) {a : Nat} (places : Nat) (bs : List Byte)
    (hfits : a + places + bs.length ≤ m.size) :
    m.placeGiven (.int a) places (bs.map fun b => .int b.toNat) =
      ({ m with memory := m.memory.overlay (a + places) bs }, none) := by
  induction bs generalizing m places with
  | nil => rfl
  | cons b bs ih =>
      rw [List.length_cons] at hfits
      have hhas : m.memory.has ((a : Int) + (places : Int)) = true := by
        simp only [Memory.has, Bool.and_eq_true, decide_eq_true_eq]
        rw [size] at hfits
        omega
      have haddress : ((a : Int) + (places : Int)).toNat = a + places := by omega
      have hsize : ({ m with memory := m.memory.put (a + places) b } : Machine).size = m.size :=
        Memory.size_put _ _ _
      rw [List.map_cons, placeGiven]
      simp only [shifted, Value.asInt?, hhas, if_true, byteOf_toNat, haddress]
      rw [ih { m with memory := m.memory.put (a + places) b } (places + 1) (by omega)]
      rfl

/-- The bytes laid over the memory are found there. -/
theorem bytesAt_overlay {m : Machine} {base : Memory} {a : Nat} {bs : List Byte}
    (hm : m.memory = base.overlay a bs) (hfits : a + bs.length ≤ base.size) :
    m.bytesAt a bs.length = .ok bs := by
  induction bs generalizing base a with
  | nil => rfl
  | cons b bs ih =>
      have hfits' : a + (bs.length + 1) ≤ base.size := hfits
      have hrest : m.bytesAt (a + 1 : Nat) bs.length = .ok bs :=
        ih hm (by rw [Memory.size_put]; omega)
      have hpeek : m.peek? a = some b := by
        rw [peek?_natCast, hm, Memory.get?_overlay hfits, if_neg (Nat.lt_irrefl a), Nat.sub_self]
        rfl
      rw [List.length_cons, bytesAt, hpeek]
      show (m.bytesAt (a + 1 : Nat) bs.length).bind _ = _
      rw [hrest]
      rfl

end Machine

/-! ## Commands -/

namespace Monitor

variable (notify : Event → Act Unit) (m : Machine) (t : Desk)

theorem perform_place {a : Nat} {bs : List Byte} (hfits : a + bs.length ≤ m.size) :
    perform notify (.place (.int a) (bs.map fun b => .int b.toNat)) (m, t) =
      .ok .done ({ m with memory := m.memory.overlay a bs }, t) := by
  have hplace := m.placeGiven_overlay (a := a) 0 bs hfits
  simp only [perform, place, Bind.bind, EStateM.bind, Pure.pure, EStateM.pure, hplace]
  rfl

/-- A source that is assembled for an address is loaded there. -/
theorem perform_loadSource {source : String} {a : Nat} {x : Assembly}
    (hsource : Assembly.compile source a = .ok x) (hfits : a + x.code.length ≤ m.size) :
    perform notify (.loadSource source (.int a)) (m, t) =
      .ok (.assembly x) ({ m with memory := m.memory.overlay a x.code }, t) := by
  have hgiven : Assembly.compileGiven Catalog.standard source (.int a) = .ok x := by
    rw [Assembly.compile] at hsource
    simp only [Assembly.compileGiven, Value.asInt?, hsource]
    rfl
  have hplace := m.placeGiven_overlay (a := a) 0 x.code hfits
  simp only [perform, loadSource, hgiven, orFail, place, Bind.bind, EStateM.bind, Pure.pure,
    EStateM.pure, hplace]
  rfl

/-- Bytes above a source may be placed before it is loaded or after. -/
theorem perform_load_place {source : String} {a c : Nat} {x : Assembly} {bs : List Byte}
    (hsource : Assembly.compile source a = .ok x) (hdisjoint : a + x.code.length ≤ c)
    (hfits : c + bs.length ≤ m.size) :
    let load := perform notify (.loadSource source (.int a))
    let place := perform notify (.place (.int c) (bs.map fun b => .int b.toNat))
    let n : Machine := { m with memory := (m.memory.overlay a x.code).overlay c bs }
    (place *> load) (m, t) = .ok (.assembly x) (n, t) ∧
      (load <* place) (m, t) = .ok (.assembly x) (n, t) := by
  have hcode : a + x.code.length ≤ m.size := by omega
  have hcomm := Memory.overlay_comm hdisjoint hfits
  have hplaced := perform_place notify m t hfits
  have hthenLoaded := perform_loadSource notify { m with memory := m.memory.overlay c bs } t hsource
    (by rw [Machine.size, Memory.size_overlay]; exact hcode)
  have hloaded := perform_loadSource notify m t hsource hcode
  have hfits' : c + bs.length ≤ (m.memory.overlay a x.code).size := by
    rw [Memory.size_overlay]
    exact hfits
  have hthenPlaced := perform_place notify { m with memory := m.memory.overlay a x.code } t hfits'
  rw [← hcomm] at hthenLoaded
  constructor
  · simp only [SeqRight.seqRight, EStateM.seqRight, hplaced, hthenLoaded]
  · simp only [SeqLeft.seqLeft, EStateM.bind, hloaded, hthenPlaced]
    rfl

end Monitor

end Lab8085
