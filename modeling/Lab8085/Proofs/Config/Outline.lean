/-
  Lab8085.Proofs.Config.Outline

  Building from values of any kind, and what every machine meets that was built.

  A configuration with values of any kind is built only where it stands for a checked one
  (`Outline.Reads`): its values are the integers that are asked for, wherever they are looked at.
  It is then built like that one.  Where nothing is placed no address is looked at, and where a
  name stands for no register its value is not; both may be anything.
-/
import Lab8085.Config.Outline
import Lab8085.Proofs.Config.Building
import Mathlib.Data.List.Forall2

namespace Lab8085

/-! ## Values of any kind -/

theorem Value.number_ok {v : Value} {n : Int} (h : v.number = .ok n) : v.asInt? = some n := by
  rw [Value.number] at h
  split at h
  · next hn =>
    cases h
    exact hn
  · cases h

theorem byteOf_ok {v : Value} {b : Byte} (h : byteOf v = .ok b) :
    ∃ n, v.asInt? = some n ∧ byteOfInt n = .ok b := by
  unfold byteOf at h
  split at h
  · cases h
  · split at h
    · cases h
    · next n hn =>
      split at h
      · next hrange =>
        cases h
        exact ⟨n, hn, if_pos hrange⟩
      · cases h

namespace Machine

theorem shifted_int {address : Value} {places : Nat} {k : Int}
    (h : shifted address places = .int k) : ∃ a, address.asInt? = some a ∧ k = a + places := by
  unfold shifted at h
  split at h
  · cases h
  · split at h
    · next a ha =>
      cases h
      exact ⟨a, ha, rfl⟩
    · next hnone =>
      rw [h] at hnone
      cases hnone

/-- Values are placed only if they are integers, and then as these are.  Without any the address is
    not looked at. -/
theorem placeGiven_ok {m n : Machine} {address : Value} {places : Nat} {vs : List Value}
    (h : m.placeGiven address places vs = (n, none)) :
    ∃ ns, vs.map Value.asInt? = ns.map some ∧ (ns = [] ∨ ∃ a, address.asInt? = some a) ∧
      ∀ a, ns = [] ∨ address.asInt? = some a → m.place (a + places) ns = (n, none) := by
  induction vs generalizing m places with
  | nil =>
      cases h
      exact ⟨[], rfl, .inl rfl, fun _ _ => rfl⟩
  | cons v vs ih =>
      rw [placeGiven] at h
      split at h
      · next k hk =>
        -- there is a value to place, so the address was looked at
        obtain ⟨a, ha, rfl⟩ := shifted_int hk
        split at h
        · next hhas =>
          split at h
          · next b hb =>
            obtain ⟨x, hx, hbyte⟩ := byteOf_ok hb
            obtain ⟨ns, hns, -, hplace⟩ := ih h
            refine ⟨x :: ns, by rw [List.map_cons, hx, hns, List.map_cons], .inr ⟨a, ha⟩, ?_⟩
            rintro c (hc | hc)
            · cases hc
            · obtain rfl : a = c := Option.some.inj (ha.symm.trans hc)
              have hnext : a + places + 1 = a + ((places + 1 : Nat) : Int) := by omega
              rw [place, if_pos hhas, hbyte, hnext]
              exact hplace a (.inr ha)
          · cases h
        · cases h
      · cases h

end Machine

namespace Config

/-- The address that a value stands for; one that is not looked at may be anything. -/
def addressOf (v : Value) : Int :=
  v.asInt?.getD 0

/-- An address and values of any kind stand for a region. -/
structure StandsFor (address : Value) (values : List Value) (p : Preload) : Prop where
  data : values.map Value.asInt? = p.data.map some
  address : p.data = [] ∨ address.asInt? = some p.address

/-- Values of any kind stand for a program that was assembled as `a`. -/
inductive StandsForProgram :
    Option Assembly → Option (Value × Value × Value) → Option Program → Prop
  | none : StandsForProgram none none none
  | some {a : Assembly} {source path address : Value} {n : Int}
      (h : a.code = [] ∨ address.asInt? = some n) :
      StandsForProgram (some a) (some (source, path, address)) (some ⟨source, path, n⟩)

/-- A configuration with values of any kind stands for a checked one: they are the integers that
    are asked for, wherever they are looked at. -/
structure Outline.Reads (o : Outline) (a : Option Assembly) (s : System) : Prop where
  memorySize : s.memorySize = o.memorySize
  program : StandsForProgram a o.program s.program
  memory : List.Forall₂ (fun g p => StandsFor g.1 g.2.spread p) o.memory s.memory
  pc : o.pc.asInt? = some s.initial.pc
  sp : o.sp.asInt? = some s.initial.sp
  mask : o.mask.asInt? = some s.initial.mask
  registers : List.Forall₂ (fun g e => e.1 = g.1 ∧ (register? g.1 = none ∨ g.2.asInt? = some e.2))
    o.registers s.initial.registers
  flags : s.initial.flags = o.flags

theorem mapError_ok {ε φ α : Type} {f : ε → φ} {x : Except ε α} {a : α}
    (h : x.mapError f = .ok a) : x = .ok a := by
  cases x with
  | error e => cases h
  | ok b =>
      cases h
      rfl

theorem mapM_ok {ε α β : Type} {f : α → Except ε β} {xs : List α} {ys : List β}
    (h : xs.mapM f = .ok ys) : List.Forall₂ (fun x y => f x = .ok y) xs ys := by
  induction xs generalizing ys with
  | nil =>
      cases h
      exact .nil
  | cons x xs ih =>
      rw [List.mapM_cons] at h
      obtain ⟨y, hy, h⟩ := Assembly.bind_ok h
      obtain ⟨zs, hzs, h⟩ := Assembly.bind_ok h
      cases h
      exact .cons hy (ih hzs)

/-- What is assembled for an address of any kind is assembled for the integer that it is; where it
    is none, nothing in the source asked for it. -/
theorem compileGiven_ok {text : String} {address : Value} {a : Assembly}
    (h : Assembly.compileGiven Catalog.standard text address = .ok a) :
    Assembly.compile text (addressOf address) = .ok a := by
  rw [Assembly.compileGiven] at h
  split at h
  · next n hn =>
    rw [addressOf, hn]
    exact mapError_ok h
  · next hn =>
    obtain ⟨d, hdraft, h⟩ := Assembly.bind_ok h
    split at h
    · split at h <;> cases h
    · split at h
      · rw [addressOf, hn, Assembly.compile, Assembly.compileWith, mapError_ok hdraft]
        exact mapError_ok h
      · cases h

namespace Outline

theorem place_ok {m n : Machine} {address : Value} {vs : List Value}
    (h : Outline.place m address vs = .ok n) :
    ∃ ns, StandsFor address vs ⟨addressOf address, ns⟩ ∧
      Config.place m (addressOf address) ns = .ok n := by
  rw [Outline.place] at h
  split at h
  · next hplace =>
    cases h
    obtain ⟨ns, hns, haddress, hrun⟩ := Machine.placeGiven_ok hplace
    have hstands : ns = [] ∨ address.asInt? = some (addressOf address) :=
      haddress.imp_right fun ⟨a, ha⟩ => by rw [addressOf, ha]; rfl
    have hrun := hrun _ hstands
    rw [Int.natCast_zero, Int.add_zero] at hrun
    exact ⟨ns, ⟨hns, hstands⟩, by rw [Config.place, hrun]⟩
  · cases h

theorem loadProgram_ok {files : Files} {m n : Machine} {g : Option (Value × Value × Value)}
    {a : Option Assembly} (h : Outline.loadProgram files m g = .ok (n, a)) :
    ∃ p, StandsForProgram a g p ∧ Config.loadProgram files m p = .ok (n, a) := by
  match g with
  | none =>
      cases h
      exact ⟨none, .none, rfl⟩
  | some (source, path, address) =>
      obtain ⟨text, htext, h⟩ := Assembly.bind_ok h
      obtain ⟨a₁, hcompile, h⟩ := Assembly.bind_ok h
      obtain ⟨m₁, hplace, h⟩ := Assembly.bind_ok h
      cases h
      obtain ⟨ns, hstands, hplace⟩ := place_ok hplace
      have hns : ns = a₁.code.map fun b => (b.toNat : Int) := by
        have hdata := hstands.data
        rw [List.map_map] at hdata
        refine (List.map_injective_iff.2 (fun _ _ => Option.some.inj) ?_).symm
        rw [List.map_map]
        exact hdata
      subst hns
      refine ⟨some ⟨source, path, addressOf address⟩,
        .some (hstands.address.imp_left List.map_eq_nil_iff.1), ?_⟩
      have htext' : sourceText files ⟨source, path, addressOf address⟩ = .ok text := htext
      simp only [Config.loadProgram, loadSource, bind, Except.bind, pure, Except.pure, htext',
        compileGiven_ok hcompile, hplace]

theorem loadAll_ok {m n : Machine} {gs : List (Value × Value)}
    (h : Outline.loadAll m gs = .ok n) :
    ∃ ps, List.Forall₂ (fun g p => StandsFor g.1 g.2.spread p) gs ps ∧
      Config.loadAll m ps = .ok n := by
  induction gs generalizing m with
  | nil => exact ⟨[], .nil, h⟩
  | cons g gs ih =>
      obtain ⟨m₁, hplace, hrest⟩ := Assembly.bind_ok h
      obtain ⟨ns, hstands, hplace⟩ := place_ok hplace
      obtain ⟨ps, hps, hall⟩ := ih hrest
      exact ⟨_ :: ps, .cons hstands hps, by rw [Config.loadAll, hplace]; exact hall⟩

/-- A configuration that is built stands for a checked one, and is built like that one. -/
theorem build_ok {files : Files} {o : Outline} {b : Built} (h : Outline.build files o = .ok b) :
    ∃ s, o.Reads b.assembly s ∧ Config.build files s = .ok b := by
  rw [Outline.build] at h
  cases hm : Machine.ofSize? o.memorySize with
  | none => rw [hm] at h; cases h
  | some m =>
      rw [hm] at h
      obtain ⟨⟨m₁, a⟩, hprogram, h⟩ := Assembly.bind_ok h
      obtain ⟨m₂, hmemory, h⟩ := Assembly.bind_ok h
      obtain ⟨i, hinitial, h⟩ := Assembly.bind_ok h
      cases h
      obtain ⟨p, hp, hprogram⟩ := loadProgram_ok hprogram
      obtain ⟨ps, hps, hmemory⟩ := loadAll_ok hmemory
      obtain ⟨pc, hpc, hinitial⟩ := Assembly.bind_ok hinitial
      obtain ⟨sp, hsp, hinitial⟩ := Assembly.bind_ok hinitial
      obtain ⟨mask, hmask, hinitial⟩ := Assembly.bind_ok hinitial
      obtain ⟨es, hes, hinitial⟩ := Assembly.bind_ok hinitial
      cases hinitial
      refine ⟨⟨o.memorySize, p, ps, ⟨pc, sp, mask, es, o.flags⟩⟩,
        ⟨rfl, hp, hps, Value.number_ok hpc, Value.number_ok hsp, Value.number_ok hmask, ?_, rfl⟩, ?_⟩
      · refine (mapM_ok hes).imp fun g e he => ?_
        split at he
        · obtain ⟨n, hn, he⟩ := Assembly.bind_ok he
          cases he
          exact ⟨rfl, .inr (Value.number_ok hn)⟩
        · next hname =>
          cases he
          exact ⟨rfl, .inl (Option.not_isSome_iff_eq_none.1 hname)⟩
      · simp only [Config.build, hm, bind, Except.bind, pure, Except.pure, hprogram, hmemory]

end Outline

/-- A configuration that is built meets what it asks for, with values of any kind too. A memory
    size out of range is reported whatever else is there: nothing of it is looked at. -/
theorem build_meets :
    (∀ files s b, build files s = .ok b → Meets files s b) ∧
    (∀ files o b, Outline.build files o = .ok b →
      ∃ s, o.Reads b.assembly s ∧ build files s = .ok b) ∧
    ∀ size : Value, (∀ n, size.asInt? = some n → n < 1 ∨ 0x10000 < n) →
      ∃ e : Error, e.key? = some "memory_size" ∧
        (∀ files s, s.memorySize = size → build files s = .error (.config e)) ∧
        ∀ files o, o.memorySize = size → Outline.build files o = .error (.config e) := by
  refine ⟨fun _ _ _ => build_ok, fun _ _ _ => Outline.build_ok, fun size hsize => ?_⟩
  have hnone := Machine.ofSize?_none hsize
  refine ⟨.memorySize (Machine.sizeMessage size), rfl, ?_, ?_⟩
  · rintro files s rfl
    rw [build, hnone]
  · rintro files o rfl
    rw [Outline.build, hnone]

/-- Two preloads over the code of a program and over each other, and names that differ only in
    case. -/
def overlaid : System where
  memorySize := .int 8
  program := some ⟨.text "here: MVI A, 1\nHLT", .null, 2⟩
  memory := [⟨3, [7, 8]⟩, ⟨4, [9]⟩]
  initial := ⟨-1, 0x10002, 0x1FF, [("A", 1), ("a", -2), ("M", 5)], [("z", .bool true), ("Q", .null)]⟩

example : ((build [] overlaid).toOption.map fun b =>
      (b.machine.memory.cells.toList, b.machine.state, b.warnings)) =
    some ([0, 0, 0x3E, 7, 9, 0, 0, 0],
      { registers := { a := 0xFE }, flags := { z := true }, pc := 0xFFFF, sp := 2, mask := 0xFF },
      ["Unknown register 'M' in initial_state, ignored",
        "Unknown flag 'Q' in initial_state, ignored"]) := by
  decide +kernel

end Config

end Lab8085
