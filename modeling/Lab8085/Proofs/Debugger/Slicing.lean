/-
  Lab8085.Proofs.Debugger.Slicing

  A run of the debugger can be made in slices.

  A run that has used up its steps stops just before a further step, after it has asked for
  every other reason to stop there.  The next run leaves out one of these questions, the one
  for a breakpoint at the address where it begins; but that question has been answered already,
  and so the break between two slices is never seen.

  The proof compares two loops that count from different numbers.  A loop that begins later by
  `a` steps and has a limit greater by `a` does the same (`continueRun_later`), since the count
  is only compared with the limit and, at a breakpoint, with zero.  What watchers do plays no
  part: if one has asked for a stop, the first slice has not ended for want of steps.
-/
import Lab8085.Proofs.Debugger.Stopping

namespace Lab8085

namespace Debugger

variable {ε σ : Type} {slot : Slot σ} {notify : Event → Run ε σ Unit}

/-! ## Slots -/

/-- A slot is changed by nothing but changes of its debugger: two changes in a row are one, and a
    change that leaves the debugger as it is leaves everything as it is. -/
structure Slot.Lawful (slot : Slot σ) : Prop where
  modify_modify : ∀ f g t, slot.modify f (slot.modify g t) = slot.modify (fun d => f (g d)) t
  modify_eq_self : ∀ f t, f (slot.get t) = slot.get t → slot.modify f t = t

theorem Slot.lawful_whole : Slot.whole.Lawful where
  modify_modify _ _ _ := rfl
  modify_eq_self _ _ h := h

/-- The slots of a session are lawful, also those that hold no debugger yet. -/
theorem lawful_deskSlot (k : Nat) : (Monitor.Desk.slot k).Lawful where
  modify_modify f g d := by
    show { d with debuggers := (d.debuggers.modify k g).modify k f } =
      { d with debuggers := d.debuggers.modify k fun x => f (g x) }
    congr 1
    apply Array.ext_getElem?
    intro i
    simp only [Array.getElem?_modify]
    by_cases hi : k = i
    · simp only [if_pos hi, Option.map_map]
      rfl
    · simp only [if_neg hi]
  modify_eq_self f d h := by
    have hsame : d.debuggers.modify k f = d.debuggers := by
      apply Array.ext_getElem?
      intro i
      rw [Array.getElem?_modify]
      by_cases hi : k = i
      · subst hi
        cases hget : d.debuggers[k]? with
        | none => rw [if_pos rfl, Option.map_none]
        | some x =>
            have hx : (Monitor.Desk.slot k).get d = x := by
              show d.debuggers[k]?.getD (.ofState {}) = x
              rw [hget, Option.getD_some]
            rw [if_pos rfl, Option.map_some, ← hx, h]
      · rw [if_neg hi]
    show { d with debuggers := d.debuggers.modify k f } = d
    rw [hsame]

/-! ## Loops that count from different numbers -/

theorem finish_ne_maxSteps {r : StopReason} (hr : r ≠ .maxSteps) (p q : Machine × σ) :
    (finish slot r : Run ε σ (Option StopReason)) p ≠ .ok (some .maxSteps) q := by
  intro h
  cases h
  exact hr rfl

/-- What the latest step did either ends a run whatever its limit, but not for want of steps, or it
    does not end a run. -/
theorem resume_cases (slot : Slot σ) (notify : Event → Run ε σ Unit) (v : Visit σ) :
    (∃ r, (∀ q, r ≠ .ok (some .maxSteps) q) ∧
      ∀ limit fuel k, resume slot notify limit fuel k v = r) ∨
    ∀ limit fuel k, resume slot notify limit fuel k v =
      continueRun slot notify limit fuel k (v.machine, v.watchers) := by
  obtain ⟨n, u, latest⟩ := v
  cases latest with
  | none => exact .inr fun _ _ _ => rfl
  | some p =>
      obtain ⟨m, s⟩ := p
      by_cases hhalt : (m.memory.get? m.state.pc.toNat == some haltOpcode) = true
      · refine .inl ⟨finish slot .halted (n, u), finish_ne_maxSteps (by decide) _, ?_⟩
        intro limit fuel k
        simp only [resume, hhalt, if_true]
      · cases hfind : (slot.get u).breakpoints.find? fun b =>
            b.nameless || b.hitBy (slot.get u).before n.state s.accesses with
        | none =>
            refine .inr fun limit fuel k => ?_
            simp only [resume, if_neg hhalt, hfind]
        | some b =>
            by_cases hb : b.nameless = true
            · refine .inl ⟨.error .noName (n, u), (fun q h => by cases h), fun limit fuel k => ?_⟩
              simp only [resume, if_neg hhalt, hfind, if_pos hb]
            · refine .inl ⟨finish slot .breakpoint (n, u), finish_ne_maxSteps (by decide) _, ?_⟩
              intro limit fuel k
              simp only [resume, if_neg hhalt, hfind, if_neg hb]

/-- The limit of a run, if it has one. -/
def limitOf (b : Option Nat) : Option Int :=
  b.map fun n : Nat => (n : Int)

/-- The limit that leaves as many steps after `a` steps. -/
def limitAfter (a : Nat) (b : Option Nat) : Option Int :=
  b.map fun n : Nat => (a : Int) + n

theorem limitAfter_any (a : Nat) (b : Option Nat) (k : Nat) :
    ((limitAfter a b).any fun n : Int => decide (n ≤ (a + k : Nat))) =
      (limitOf b).any fun n : Int => decide (n ≤ k) := by
  cases b with
  | none => rfl
  | some n =>
      simp only [limitAfter, limitOf, Option.map_some, Option.any_some, decide_eq_decide]
      omega

/-- Before `a` steps there is nothing of the limit after them. -/
theorem limitAfter_any_of_lt {a k : Nat} (h : k < a) (b : Option Nat) :
    ((limitAfter a b).any fun n : Int => decide (n ≤ k)) = false := by
  cases b with
  | none => rfl
  | some n =>
      simp only [limitAfter, Option.map_some, Option.any_some, decide_eq_false_iff_not]
      omega

/-- A loop that has made a step goes on in the same way if it counts from a number that is greater
    by `a`, up to a limit that is greater by `a`. -/
theorem continueRun_later (a : Nat) (b : Option Nat) (fuel k : Nat) (p : Machine × σ) :
    continueRun slot notify (limitOf b) fuel (k + 1) p =
      continueRun slot notify (limitAfter a b) fuel (a + (k + 1)) p := by
  induction fuel generalizing k p with
  | zero => rfl
  | succ fuel ih =>
      obtain ⟨m, t⟩ := p
      have hk : (k + 1 != 0) = true := rfl
      have hak : (a + (k + 1) != 0) = true := rfl
      have hstep : ∀ n u (s : Snapshot),
          resume slot notify (limitOf b) fuel (k + 1 + 1) ⟨n, u, some (m, s)⟩ =
            resume slot notify (limitAfter a b) fuel (a + (k + 1) + 1) ⟨n, u, some (m, s)⟩ := by
        intro n u s
        rcases resume_cases slot notify ⟨n, u, some (m, s)⟩ with ⟨r, -, hr⟩ | hgoesOn
        · rw [hr, hr]
        · rw [hgoesOn, hgoesOn, Nat.add_assoc a]
          exact ih (k + 1) (n, u)
      rw [continueRun_succ, continueRun_succ, limitAfter_any, hk, hak]
      cases Debugger.step slot notify (m, t) with
      | ok s q => simp only [hstep q.1 q.2 s]
      | error f q => rfl

/-! ## Where the first slice ends -/

/-- A run is about to make its next step after `k` steps, if its limit allows that: nothing else
    speaks against it. -/
structure Ready (slot : Slot σ) (k : Nat) (p : Machine × σ) : Prop where
  running : (slot.get p.2).running = true
  mapped : p.1.memory.get? p.1.state.pc.toNat ≠ none
  unawaited : (k != 0 && (slot.get p.2).breakpoints.any fun b => b.hitAt p.1.state.pc) = false

theorem Ready.continueRun {k : Nat} {m : Machine} {t : σ} (h : Ready slot k (m, t))
    (limit : Option Int) (fuel : Nat) :
    continueRun slot notify limit (fuel + 1) k (m, t) =
      if (limit.any fun n : Int => decide (n ≤ k)) = true then finish slot .maxSteps (m, t)
      else
        match Debugger.step slot notify (m, t) with
        | .ok s (n, u) => resume slot notify limit fuel (k + 1) ⟨n, u, some (m, s)⟩
        | .error f p => .error f p := by
  have hrunning : ¬(slot.get t).running = false := by
    rw [h.running]
    decide
  have hawaited : ¬(k != 0 && (slot.get t).breakpoints.any fun b => b.hitAt m.state.pc) = true := by
    rw [h.unawaited]
    decide
  rw [continueRun_succ, if_neg hrunning, if_neg h.mapped]
  exact if_neg hawaited

/-- A run that has used up its steps was ready for the next one, and a run with a greater limit
    gets there too. -/
theorem ready_of_maxSteps {a k fuel : Nat} (hk : k ≤ a) {p q : Machine × σ}
    (h : Debugger.continueRun slot notify (some (a : Int)) fuel k p = .ok (some .maxSteps) q) :
    ∃ m t, q = (m, slot.modify stop t) ∧ Ready slot a (m, t) ∧ ∀ b more,
      Debugger.continueRun slot notify (limitAfter a b) (more + (a - k)) k p =
        Debugger.continueRun slot notify (limitAfter a b) more a (m, t) := by
  induction fuel generalizing k p with
  | zero => cases h
  | succ fuel ih =>
      obtain ⟨m, t⟩ := p
      -- of the reasons to stop here only the limit gives this answer
      have hready : Ready slot k (m, t) := by
        rw [continueRun_succ] at h
        split_ifs at h with hrunning hmapped hawaited
        · cases h
        · cases h
        · cases h
        all_goals exact ⟨by simpa using hrunning, hmapped, by simpa using hawaited⟩
      rw [hready.continueRun] at h
      by_cases hlimit : k = a
      · subst hlimit
        have hany : ((some (k : Int)).any fun n : Int => decide (n ≤ k)) = true := by simp
        rw [if_pos hany] at h
        cases h
        refine ⟨m, t, rfl, hready, fun b more => ?_⟩
        rw [Nat.sub_self, Nat.add_zero]
      · have hlt : k < a := by omega
        have hany : ¬((some (a : Int)).any fun n : Int => decide (n ≤ k)) = true := by
          simp only [Option.any_some, decide_eq_true_eq]
          omega
        rw [if_neg hany] at h
        have hafter (b : Option Nat) (more : Nat) :
            Debugger.continueRun slot notify (limitAfter a b) (more + (a - k)) k (m, t) =
              match Debugger.step slot notify (m, t) with
              | .ok s (n, u) => resume slot notify (limitAfter a b) (more + (a - (k + 1))) (k + 1)
                  ⟨n, u, some (m, s)⟩
              | .error f p => .error f p := by
          have hfuel : more + (a - k) = more + (a - (k + 1)) + 1 := by omega
          rw [hfuel, hready.continueRun, limitAfter_any_of_lt hlt, if_neg Bool.false_ne_true]
        cases hstep : Debugger.step slot notify (m, t) with
        | error f p =>
            rw [hstep] at h
            cases h
        | ok s p =>
            obtain ⟨n, u⟩ := p
            simp only [hstep] at h hafter
            rcases resume_cases slot notify ⟨n, u, some (m, s)⟩ with ⟨r, hr, hends⟩ | hgoesOn
            · rw [hends] at h
              exact absurd h (hr q)
            · rw [hgoesOn] at h
              obtain ⟨m', t', hq, hready', hmore⟩ := ih hlt h
              refine ⟨m', t', hq, hready', fun b more => ?_⟩
              rw [hafter, hgoesOn, hmore]

/-! ## Slices -/

/-- Where a run is ready it makes no difference whether it begins there or has come there. -/
theorem Ready.continueRun_zero {a : Nat} {p : Machine × σ} (h : Ready slot a p) (b : Option Nat)
    (fuel : Nat) :
    Debugger.continueRun slot notify (limitOf b) fuel 0 p =
      Debugger.continueRun slot notify (limitAfter a b) fuel a p := by
  cases fuel with
  | zero => rfl
  | succ fuel =>
      obtain ⟨m, t⟩ := p
      -- a breakpoint at the address where a run begins does not count
      have hzero : Ready slot 0 (m, t) := ⟨h.running, h.mapped, rfl⟩
      have hlimit := limitAfter_any a b 0
      rw [Nat.add_zero] at hlimit
      rw [hzero.continueRun, h.continueRun, hlimit]
      refine if_congr Iff.rfl rfl ?_
      cases Debugger.step slot notify (m, t) with
      | error f q => rfl
      | ok s q =>
          rcases resume_cases slot notify ⟨q.1, q.2, some (m, s)⟩ with ⟨r, -, hends⟩ | hgoesOn
          · simp only [hends]
          · simp only [hgoesOn]
            exact continueRun_later a b fuel 0 q

/-- **A run can be made in slices.**  If a run with the limit `a` ends for want of steps, then the
    run that follows it with a limit `b`, or with none, ends as one run does whose limit is greater
    by `a`: with the same reason or the same fault, with the same machine, and with the same
    debugger and its history.  If the one never ends, neither does the other: with `more` units of
    fuel it is as far as the other with `a + more`.  Watchers may do what they like. -/
theorem run_sliced (hslot : slot.Lawful) {a fuel : Nat} {p q : Machine × σ}
    (h : run slot notify fuel (some (a : Int)) p = .ok (some .maxSteps) q) (b : Option Nat)
    (more : Nat) :
    run slot notify more (limitOf b) q = run slot notify (a + more) (limitAfter a b) p := by
  obtain ⟨m, t⟩ := p
  have hrun (limit : Option Int) (fuel : Nat) (s : Machine × σ) : run slot notify fuel limit s =
      Debugger.continueRun slot notify limit fuel 0
        (s.1, slot.modify (fun d => { d with running := true }) s.2) := rfl
  rw [hrun] at h
  obtain ⟨m', t', rfl, hready, hmore⟩ := ready_of_maxSteps (Nat.zero_le a) h
  -- the second slice is set running again, as it was before the first one ended
  have hagain : slot.modify (fun d => { d with running := true }) (slot.modify stop t') = t' := by
    rw [hslot.modify_modify]
    apply hslot.modify_eq_self
    have hrunning := hready.running
    simp only [stop]
    generalize slot.get t' = d at hrunning
    obtain ⟨bs, running, before, last, history⟩ := d
    cases hrunning
    rfl
  have hfuel : more + (a - 0) = a + more := by omega
  have hsecond : Debugger.continueRun slot notify (limitOf b) more 0 (m', t') =
      Debugger.continueRun slot notify (limitAfter a b) more a (m', t') :=
    hready.continueRun_zero b more
  have hwhole := hmore b more
  rw [hfuel] at hwhole
  rw [hrun, hrun, hagain, hwhole, hsecond]

end Debugger

namespace Monitor

/-- Four bytes of memory with INR A and a jump back to it. -/
def circling : Machine where
  memory := ⟨#[0x3C, 0xC3, 0x00, 0x00]⟩

/-- A desk with a debugger that waits at address 0, where the circle begins. -/
def awaiting : Desk where
  debuggers := #[{ breakpoints := [{ kind := .pcMatch, value := .int 0 }], before := {} }]

/-- The first slice ends between the two instructions, the second at the breakpoint, with both
    steps in the history; so it is with one run. -/
theorem run_sliced_circling :
    (Desk.slot 0).Lawful ∧ ∃ q,
      Debugger.run (Desk.slot 0) (notify 1) 2 (some (1 : Nat)) (circling, awaiting) =
        .ok (some .maxSteps) q ∧
      seenOf (Debugger.run (Desk.slot 0) (notify 1) 2 none q) =
        some (some .breakpoint, #[0x3C, 0xC3, 0x00, 0x00], 0, 2) := by
  have hslot : (Desk.slot 0).Lawful := Debugger.lawful_deskSlot 0
  have hseen : seenOf (Debugger.run (Desk.slot 0) (notify 1) 2 (some (1 : Nat))
      (circling, awaiting)) = some (some .maxSteps, #[0x3C, 0xC3, 0x00, 0x00], 1, 1) := by
    decide +kernel
  have hwhole : seenOf (Debugger.run (Desk.slot 0) (notify 1) 3 none (circling, awaiting)) =
      some (some .breakpoint, #[0x3C, 0xC3, 0x00, 0x00], 0, 2) := by
    decide +kernel
  refine ⟨hslot, ?_⟩
  cases hfirst : Debugger.run (Desk.slot 0) (notify 1) 2 (some (1 : Nat)) (circling, awaiting) with
  | error f q =>
      rw [hfirst] at hseen
      cases hseen
  | ok r q =>
      rw [hfirst] at hseen
      obtain rfl : r = some .maxSteps := congrArg Prod.fst (Option.some.inj hseen)
      refine ⟨q, rfl, ?_⟩
      have hsliced : Debugger.run (Desk.slot 0) (notify 1) 2 none q =
          Debugger.run (Desk.slot 0) (notify 1) (1 + 2) none (circling, awaiting) :=
        Debugger.run_sliced hslot hfirst none 2
      rw [hsliced, hwhole]

end Monitor

end Lab8085
