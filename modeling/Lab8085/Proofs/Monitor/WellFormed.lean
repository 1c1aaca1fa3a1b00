/-
  Lab8085.Proofs.Monitor.WellFormed

  A session never gets out of range.

  Every command keeps the machine in range and so does every watcher, who may give
  commands too: the proof for commands asks that whoever is told of events keeps the
  machine in range, and the proof for those who are told goes by induction on how deep
  watchers call each other.  With the machine, the snapshots that debuggers keep stay in
  range.
-/
import Lab8085.Proofs.Machine.WellFormed

namespace Lab8085

open Run

/-! ## Debuggers -/

namespace Debugger

/-- The snapshots that a debugger keeps are in range. -/
structure Fits (n : Nat) (d : Debugger) : Prop where
  history : ∀ x ∈ d.history.toList, x.Fits n
  last : ∀ x, d.last = some x → x.Fits n

theorem fits_ofState (n : Nat) (s : State) : (ofState s).Fits n := by
  refine ⟨fun _ h => absurd h List.not_mem_nil, fun x hx => ?_⟩
  cases hx

variable {n : Nat}

/-- Only the snapshots matter. -/
theorem Fits.of_eq {d d' : Debugger} (h : d.Fits n) (hhistory : d'.history = d.history)
    (hlast : d'.last = d.last) : d'.Fits n :=
  ⟨by rw [hhistory]; exact h.history, by rw [hlast]; exact h.last⟩

theorem Fits.note {d : Debugger} {x : Snapshot} (h : d.Fits n) (hx : x.Fits n) :
    (d.note x).Fits n := by
  refine ⟨fun y hy => ?_, fun y hy => ?_⟩
  · simp only [Debugger.note, Array.toList_push, List.mem_append, List.mem_singleton] at hy
    rcases hy with hy | rfl
    · exact h.history y hy
    · exact hx
  · cases hy
    exact hx

theorem Fits.addBreakpoint {d : Debugger} (h : d.Fits n) (b : Breakpoint) :
    (d.addBreakpoint b).Fits n := by
  rw [Debugger.addBreakpoint]
  split
  · exact h
  · exact h.of_eq rfl rfl

variable {ε σ : Type} {J : σ → Prop}

/-- A slot whose debugger is in range as long as a property of the watchers holds, which stays
    true when the debugger is changed to another one in range. -/
structure Slot.Fits (n : Nat) (J : σ → Prop) (slot : Slot σ) : Prop where
  get : ∀ t, J t → (slot.get t).Fits n
  modify : ∀ f, (∀ d, Debugger.Fits n d → (f d).Fits n) → ∀ t, J t → J (slot.modify f t)

variable {slot : Slot σ} {notify : Event → Run ε σ Unit}

theorem maintains_now (hslot : slot.Fits n J) :
    Maintains n J (now slot : Run ε σ Debugger) fun d => d.Fits n :=
  maintains_watchers.bind fun t ht => .pure (hslot.get t ht)

theorem maintains_update (hslot : slot.Fits n J) {f : Debugger → Debugger}
    (hf : ∀ d, Debugger.Fits n d → (f d).Fits n) :
    Maintains n J (update slot f : Run ε σ Unit) fun _ => True :=
  maintains_modifyWatchers (hslot.modify f hf)

theorem maintains_step (hslot : slot.Fits n J) (hw : Watched n J notify) :
    Maintains n J (step slot notify) fun x => x.Fits n := by
  refine maintains_state.bind fun s _ => ?_
  refine (maintains_update hslot (f := fun d => { d with before := s })
    fun _ hd => hd.of_eq rfl rfl).bind fun _ _ => ?_
  refine (Run.maintains_step hw).bind fun x hx => ?_
  exact (maintains_update hslot fun _ hd => hd.note hx).bind fun _ _ => .pure hx

theorem maintains_finish (hslot : slot.Fits n J) (r : StopReason) :
    Maintains n J (finish slot r : Run ε σ (Option StopReason)) fun _ => True :=
  (maintains_update hslot (f := stop) fun _ hd => hd.of_eq rfl rfl).bind fun _ _ => .pure trivial

/-- A run of a debugger keeps everything in range, wherever it stops. -/
theorem maintains_continueRun (hslot : slot.Fits n J) (hw : Watched n J notify)
    (maxSteps : Option Int) (fuel steps : Nat) :
    Maintains n J (continueRun slot notify maxSteps fuel steps) fun _ => True := by
  induction fuel generalizing steps with
  | zero => exact .pure trivial
  | succ fuel ih =>
      have hfinish := fun r => maintains_finish (ε := ε) hslot r
      refine (maintains_now hslot).bind fun d _ => .ite (.pure trivial) ?_
      refine maintains_state.bind fun s _ => maintains_machine.bind fun m _ => ?_
      refine .ite (hfinish _) ((maintains_now hslot).bind fun d _ => ?_)
      refine .ite (hfinish _) (.ite (hfinish _) ((maintains_step hslot hw).bind fun x _ => ?_))
      refine .ite (hfinish _) ((maintains_now hslot).bind fun d _ => ?_)
      refine maintains_state.bind fun s _ => ?_
      split
      · exact .ite (.throw _) (hfinish _)
      · exact ih (steps + 1)

theorem maintains_run (hslot : slot.Fits n J) (hw : Watched n J notify) (fuel : Nat)
    (maxSteps : Option Int) :
    Maintains n J (run slot notify fuel maxSteps) fun _ => True :=
  (maintains_update hslot (f := fun d => { d with running := true })
    fun _ hd => hd.of_eq rfl rfl).bind fun _ _ => maintains_continueRun hslot hw maxSteps fuel 0

end Debugger

/-! ## Commands -/

/-- Placing values leaves the size of the memory as it is. -/
theorem Machine.size_placeGiven (m : Machine) (address : Value) (places : Nat)
    (vs : List Value) : (m.placeGiven address places vs).1.memory.size = m.memory.size := by
  induction vs generalizing m places with
  | nil => rfl
  | cons v vs ih =>
      rw [placeGiven]
      split
      · split
        · split
          · exact (ih _ _).trans (Memory.size_put _ _ _)
          · rfl
        · rfl
      · rfl

namespace Monitor

/-- The debuggers of a session are in range. -/
def Desk.Fits (n : Nat) (d : Desk) : Prop :=
  ∀ x ∈ d.debuggers.toList, x.Fits n

theorem Desk.Fits.keep {n : Nat} {d : Desk} (h : d.Fits n) (id : String) (w : Watcher) :
    (d.keep id w).Fits n := by
  rw [Desk.keep]
  cases d.watcher? id with
  | none => exact h
  | some _ => exact h

/-- The numbers and snapshots of an answer are in range. -/
def Answer.Fits (n : Nat) : Answer → Prop
  | .number v => 0 ≤ v ∧ v ≤ 0xFFFF
  | .trace xs _ => ∀ x ∈ xs, x.Fits n
  | .snapshot x => ∀ y, x = some y → y.Fits n
  | _ => True

theorem fits_byte (n : Nat) (b : Byte) : (Answer.number b.toNat).Fits n := by
  have hb := b.isLt
  exact ⟨Int.natCast_nonneg _, by omega⟩

theorem fits_word (n : Nat) (w : Word) : (Answer.number w.toNat).Fits n := by
  have hw := w.isLt
  exact ⟨Int.natCast_nonneg _, by omega⟩

theorem fits_slot (n k : Nat) : (Desk.slot k).Fits n (Desk.Fits n) where
  get d hd := by
    change ((d.debuggers[k]?).getD (.ofState {})).Fits n
    cases h : d.debuggers[k]? with
    | none => exact Debugger.fits_ofState n {}
    | some x => exact hd x (Array.mem_toList_iff.2 (Array.mem_of_getElem? h))
  modify f hf d hd x hx := by
    obtain ⟨i, hi, rfl⟩ := List.getElem_of_mem hx
    have hd' : ∀ j (hj : j < d.debuggers.size), d.debuggers[j].Fits n := fun j hj =>
      hd _ (Array.mem_toList_iff.2 (Array.getElem_mem hj))
    simp only [Desk.slot, Array.getElem_toList, Array.getElem_modify]
    split
    · exact hf _ (hd' i _)
    · exact hd' i _

/-- An act keeps the machine and the debuggers in range. -/
abbrev Keeps (n : Nat) {α : Type} (act : Act α) (post : α → Prop) : Prop :=
  Maintains n (Desk.Fits n) act post

variable {n : Nat} {α : Type} {p : α → Prop}

theorem keeps_fail (e : Failure) : Keeps n (fail e : Act α) p :=
  .throw _

theorem keeps_orFail (x : Except Failure α) : Keeps n (orFail x) fun _ => True := by
  cases x with
  | ok a => exact .pure trivial
  | error e => exact keeps_fail e

theorem keeps_attempt {act : Act α} (h : Keeps n act p) :
    Keeps n (attempt act) fun r => ∀ x, r = .ok x → p x := by
  intro s hm hd
  obtain ⟨⟨hm', hd'⟩, hpost⟩ := h s hm hd
  rw [attempt]
  cases hr : act s with
  | ok x s' =>
      rw [hr] at hm' hd'
      refine ⟨⟨hm', hd'⟩, fun r t hrt y hy => ?_⟩
      cases hrt
      cases hy
      exact hpost x s' hr
  | error e s' =>
      rw [hr] at hm' hd'
      refine ⟨⟨hm', hd'⟩, fun r t hrt y hy => ?_⟩
      cases hrt
      cases hy

theorem keeps_newDebugger : Keeps n newDebugger fun _ => True := by
  refine maintains_state.bind fun s _ => maintains_modifyWatchers fun d hd x hx => ?_
  simp only [Array.toList_push, List.mem_append, List.mem_singleton] at hx
  rcases hx with hx | rfl
  · exact hd x hx
  · exact Debugger.fits_ofState n s

theorem keeps_debugger : Keeps n debugger fun slot => slot.Fits n (Desk.Fits n) := by
  have hlast : Keeps n (watchers >>= fun d => pure (Desk.slot (d.debuggers.size - 1)))
      fun slot => slot.Fits n (Desk.Fits n) := maintains_watchers.bind fun d _ => .pure (fits_slot n _)
  exact maintains_watchers.bind fun d _ => .ite (keeps_newDebugger.bind fun _ _ => hlast) hlast

theorem keeps_place (address : Value) (values : List Value) :
    Keeps n (place address values) fun _ => True := by
  intro s hm hd
  have hfits := hm.of_eq (s.1.size_placeGiven address 0 values) (s.1.log_placeGiven address 0 values)
  refine ⟨?_, fun _ _ _ => trivial⟩
  rw [place]
  cases h : s.1.placeGiven address 0 values with
  | mk m e =>
      rw [h] at hfits
      cases e <;> exact ⟨hfits, hd⟩

theorem keeps_loadSource (source : String) (address : Value) :
    Keeps n (loadSource source address) fun _ => True :=
  (keeps_orFail _).bind fun _ _ => (keeps_place _ _).bind fun _ _ => .pure trivial

section Told

variable {notify : Event → Act Unit}

/-- Steps that are traced give snapshots in range, up to a failure. -/
theorem keeps_trace (hw : Watched n (Desk.Fits n) notify) (k : Nat) {done : List Snapshot}
    (hdone : ∀ x ∈ done, x.Fits n) : Keeps n (trace notify done k) fun a => a.Fits n := by
  induction k generalizing done with
  | zero => exact .pure fun x hx => hdone x (List.mem_reverse.1 hx)
  | succ k ih =>
      refine (keeps_attempt (maintains_step hw)).bind fun r hr => ?_
      cases r with
      | error e => exact .pure fun x hx => hdone x (List.mem_reverse.1 hx)
      | ok s =>
          refine ih fun x hx => ?_
          rcases List.mem_cons.1 hx with rfl | hx
          · exact hr x rfl
          · exact hdone x hx

theorem keeps_debugRun (hw : Watched n (Desk.Fits n) notify) (maxSteps : Value) :
    Keeps n (debugRun notify maxSteps) fun a => a.Fits n := by
  refine keeps_debugger.bind fun slot hslot => ?_
  cases stepLimit maxSteps with
  | ok limit =>
      refine (Debugger.maintains_run hslot hw _ _).bind fun r _ => ?_
      cases r with
      | none => exact .pure trivial
      | some r => exact .pure trivial
  | error e =>
      refine (Debugger.maintains_run hslot hw _ _).bind fun r _ => ?_
      split
      · exact .pure trivial
      · exact keeps_fail e

/-- Every command keeps the machine and the debuggers in range, and answers in range. -/
theorem keeps_perform (hw : Watched n (Desk.Fits n) notify) (c : Command) :
    Keeps n (perform notify c) fun a => a.Fits n := by
  cases c with
  | refused e => exact keeps_fail e
  | place address values => exact (keeps_place _ _).bind fun _ _ => .pure trivial
  | bytes address length =>
      refine maintains_machine.bind fun m _ => ?_
      split
      · exact .pure trivial
      · exact .throw _
  | readMemory address => exact (maintains_readMemory _).bind fun b _ => .pure (fits_byte n b)
  | writeMemory address value => exact (maintains_writeMemory _ _).bind fun _ _ => .pure trivial
  | readPort port => exact (maintains_readPort _).bind fun b _ => .pure (fits_byte n b)
  | writePort port value => exact (maintains_writePort _ _).bind fun _ _ => .pure trivial
  | pushWord value => exact (maintains_micro hw _).bind fun _ _ => .pure trivial
  | popWord => exact (maintains_micro hw _).bind fun w _ => .pure (fits_word n w)
  | setRegister r value => exact (maintains_assign hw _).bind fun _ _ => .pure trivial
  | register r => exact maintains_state.bind fun s _ => .pure (fits_byte n _)
  | setFlag f value => exact (maintains_assign hw _).bind fun _ _ => .pure trivial
  | flag f => exact maintains_state.bind fun s _ => .pure trivial
  | setPair p value => exact (maintains_micro hw _).bind fun _ _ => .pure trivial
  | pair p => exact maintains_state.bind fun s _ => .pure (fits_word n _)
  | setPc value => exact (maintains_assign hw _).bind fun _ _ => .pure trivial
  | setSp value => exact (maintains_assign hw _).bind fun _ _ => .pure trivial
  | setMask value => exact (maintains_assign hw _).bind fun _ _ => .pure trivial
  | reset =>
      exact (maintains_modifyMachine (f := Machine.reset) fun _ hm => hm.of_eq rfl rfl).bind
        fun _ _ => .pure trivial
  | step =>
      refine (maintains_step hw).bind fun x hx => .pure fun y hy => ?_
      cases hy
      exact hx
  | trace k => exact keeps_trace hw k fun _ hx => absurd hx List.not_mem_nil
  | run => exact (maintains_toEnd hw _).bind fun _ _ => .pure trivial
  | takeLog => exact maintains_takeLog.bind fun _ _ => .pure trivial
  | dump => exact maintains_machine.bind fun _ _ => .pure trivial
  | disassemble address length =>
      refine maintains_machine.bind fun m _ => ?_
      split
      · exact .pure trivial
      · exact .throw _
  | registerMap => exact maintains_state.bind fun _ _ => .pure trivial
  | flagMap => exact maintains_state.bind fun _ _ => .pure trivial
  | layout => exact .pure trivial
  | pairs => exact maintains_state.bind fun _ _ => .pure trivial
  | memorySize => exact maintains_watchers.bind fun _ _ => .pure trivial
  | setSymbols entries =>
      refine (maintains_modifyMachine (f := fun m => { m with symbols := .ofList entries })
        fun _ hm => hm.of_eq rfl rfl).bind fun _ _ => ?_
      exact .ite (.pure trivial) (keeps_fail _)
  | symbols => exact maintains_machine.bind fun _ _ => .pure trivial
  | loadSource source address => exact (keeps_loadSource _ _).bind fun _ _ => .pure trivial
  | loadFile path address =>
      exact maintains_watchers.bind fun _ _ => (keeps_orFail _).bind fun _ _ =>
        (keeps_loadSource _ _).bind fun _ _ => .pure trivial
  | watch topic subject id reaction =>
      exact (maintains_modifyWatchers fun d hd => hd.keep id ⟨topic, reaction⟩).bind fun _ _ =>
        .pure trivial
  | unwatch topic subject id reaction =>
      exact (maintains_modifyWatchers fun d hd => hd.keep id ⟨topic, reaction⟩).bind fun _ _ =>
        .pure trivial
  | newDebugger => exact keeps_newDebugger.bind fun _ _ => .pure trivial
  | addBreakpoint b =>
      exact keeps_debugger.bind fun slot hslot =>
        (Debugger.maintains_update hslot fun _ hd => hd.addBreakpoint b).bind fun _ _ =>
          .pure trivial
  | removeBreakpoint b =>
      exact keeps_debugger.bind fun slot hslot =>
        (Debugger.maintains_update hslot (f := fun d => d.removeBreakpoint b) fun _ hd =>
          hd.of_eq rfl rfl).bind fun _ _ => .pure trivial
  | breakpoints =>
      exact keeps_debugger.bind fun slot hslot =>
        (Debugger.maintains_now hslot).bind fun _ _ => .pure trivial
  | debugStep =>
      exact keeps_debugger.bind fun slot hslot =>
        (Debugger.maintains_step hslot hw).bind fun _ _ => .pure trivial
  | debugRun maxSteps => exact keeps_debugRun hw maxSteps
  | debugStop =>
      exact keeps_debugger.bind fun slot hslot =>
        (Debugger.maintains_update hslot (f := Debugger.stop) fun _ hd => hd.of_eq rfl rfl).bind
          fun _ _ => .pure trivial
  | history =>
      exact keeps_debugger.bind fun slot hslot =>
        (Debugger.maintains_now hslot).bind fun _ _ => .pure trivial
  | lastSnapshot =>
      exact keeps_debugger.bind fun slot hslot =>
        (Debugger.maintains_now hslot).bind fun _ hd => .pure hd.last

/-! ## Watchers -/

theorem keeps_forM {κ : Type} {f : κ → Act Unit} (hf : ∀ k, Keeps n (f k) fun _ => True)
    (ks : List κ) : Keeps n (ks.forM f) fun _ => True := by
  induction ks with
  | nil => exact .pure trivial
  | cons k ks ih => exact (hf k).bind fun _ _ => ih

theorem keeps_tell {call : String → Event → Act Unit}
    (hcall : ∀ id e, Keeps n (call id e) fun _ => True) (e : Event) :
    Keeps n (Watches.tell Desk.watches call e) fun _ => True :=
  maintains_watchers.bind fun _ _ => keeps_forM (fun id => hcall id e) _

/-- A watcher that is called keeps everything in range, also with a command of its own. -/
theorem keeps_call (hw : Watched n (Desk.Fits n) notify) (id : String) (e : Event) :
    Keeps n (call notify id e) fun _ => True := by
  refine maintains_watchers.bind fun d _ => ?_
  cases d.watcher? id with
  | none => exact .pure trivial
  | some w =>
      refine (keeps_orFail _).bind fun text _ => ?_
      refine (maintains_modifyWatchers (f := fun d : Desk =>
        { d with calls := d.calls.push (id ++ ":" ++ text) }) fun _ hd => hd).bind fun _ _ => ?_
      cases w.reaction with
      | nothing => exact .pure trivial
      | fail message => exact keeps_fail _
      | perform c => exact (keeps_perform hw c).bind fun _ _ => .pure trivial

end Told

/-- However deep watchers call each other. -/
theorem keeps_notify (n depth : Nat) : Watched n (Desk.Fits n) (notify depth) := by
  induction depth with
  | zero => exact fun e => keeps_tell (fun _ _ => keeps_fail _) e
  | succ depth ih => exact fun e => keeps_tell (keeps_call ih) e

/-! ## Sessions -/

/-- The machine and the desk after some commands, whether they succeed or fail. -/
def after (s : Machine × Desk) (cs : List Command) : Machine × Desk :=
  cs.foldl (fun s c => (report c s).2) s

/-- What a report tells is in range. -/
def Report.Fits (n : Nat) (r : Report) : Prop :=
  ∀ a, r.outcome = .ok a → a.Fits n

theorem fits_report (c : Command) {s : Machine × Desk} (hm : s.1.Fits n) (hd : s.2.Fits n) :
    (report c s).1.Fits n ∧ (report c s).2.1.Fits n ∧ (report c s).2.2.Fits n := by
  obtain ⟨⟨hm', hd'⟩, hpost⟩ :=
    keeps_perform (keeps_notify n nestingLimit) c (s.1, { s.2 with calls := #[] }) hm hd
  rw [report, execute]
  cases h : perform (notify nestingLimit) c (s.1, { s.2 with calls := #[] }) with
  | ok x s' =>
      rw [h] at hm' hd'
      refine ⟨fun a ha => ?_, hm', hd'⟩
      cases ha
      exact hpost x s' h
  | error e s' =>
      rw [h] at hm' hd'
      refine ⟨fun a ha => ?_, hm', hd'⟩
      cases ha

theorem fits_session (cs : List Command) {s : Machine × Desk} (hm : s.1.Fits n)
    (hd : s.2.Fits n) :
    (∀ r ∈ session s cs, r.Fits n) ∧ (after s cs).1.Fits n ∧ (after s cs).2.Fits n := by
  induction cs generalizing s with
  | nil => exact ⟨fun _ h => absurd h List.not_mem_nil, hm, hd⟩
  | cons c cs ih =>
      obtain ⟨hr, hm', hd'⟩ := fits_report c hm hd
      obtain ⟨hrs, hafter⟩ := ih hm' hd'
      refine ⟨fun r h => ?_, hafter⟩
      rcases List.mem_cons.1 h with rfl | h
      · exact hr
      · exact hrs r h

/-- **A session never gets out of range**, whatever it is asked. -/
theorem session_wellFormed {n : Nat} {m : Machine} (hm : Machine.ofSize? (.int n) = some m)
    {d : Desk} (hd : d.debuggers = #[]) (cs : List Command) :
    let s := after (m, d) cs
    -- registers, memory and log
    s.1.WellFormed n ∧
      -- the snapshots that debuggers keep and those that commands have answered
      s.2.Fits n ∧ (∀ r ∈ session (m, d) cs, r.Fits n) ∧
      -- the steps that can be made from there, whoever watches, also those that fail
      ∀ depth k, ∀ a ∈ Run.attempts (notify depth) k s, ∀ x ∈ a.accesses, x.Fits n := by
  intro s
  have hfits : m.Fits n := by
    simp only [Machine.ofSize?, Value.asInt?] at hm
    split at hm
    · cases hm
      exact Machine.fits_ofSize n
    · cases hm
  have hdesk : d.Fits n := by
    intro x hx
    rw [hd] at hx
    exact absurd hx List.not_mem_nil
  obtain ⟨hreports, hmachine, hdebuggers⟩ := fits_session (s := (m, d)) cs hfits hdesk
  exact ⟨hmachine.wellFormed, hdebuggers, hreports, fun depth k =>
    attempts_fit (keeps_notify n depth) k hmachine hdebuggers⟩

/-- INR M in three bytes of memory, with a negative number for HL, a write to a large address, and
    two steps, of which the second one finds an unknown opcode. -/
def straining : List Command :=
  [.place (.int 0) [.int 0x34, .int 0x08, .int 0xFF], .setPair .h (-0xFFFE),
    .writeMemory (-0xFFFFFFFFFFFFFFFE) 0x1FF, .writeMemory 0x7FFFFFFFFFFFFFFF 1, .step, .step]

theorem session_straining :
    let start := (Machine.ofSize 3, ({} : Desk))
    (session start straining).map (fun r => r.outcome.isOk) =
        [true, true, true, false, true, false] ∧
      (after start straining).1.WellFormed 3 ∧ ∀ r ∈ session start straining, r.Fits 3 := by
  intro start
  obtain ⟨hmachine, -, hreports, -⟩ :=
    session_wellFormed (n := 3) (m := Machine.ofSize 3) rfl (d := {}) rfl straining
  refine ⟨?_, hmachine, hreports⟩
  decide +kernel

end Monitor

end Lab8085
