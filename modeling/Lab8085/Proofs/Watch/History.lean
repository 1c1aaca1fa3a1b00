/-
  Lab8085.Proofs.Watch.History

  Who is told what, by the history of the watches.

  A history says what was done with watches: set up, cancelled, an event begun and ended, a
  watcher called and come back.  A registration is a place in it where a watch was set up, and
  from the history alone it is told which registrations are live (`Live`): a cancellation takes
  away the oldest live one of its watch and no other.

  A history is lawful if every event calls the watchers that were due when it began, in the order
  of their registrations and once for each, up to the first that fails; and if what they do
  meanwhile, which may be events again, is lawful too.  `Hub.lawful_run` says that no program can
  bring about another history.  What carries it is that the list of watches has the live
  registrations in order (`Hub.Reflects`): the first equal watch in the list is the oldest one.
-/
import Lab8085.Watch

namespace Lab8085

/-! ## Registrations in a history -/

namespace Watches

variable {κ ι ε : Type}

/-- Something done with watches. What comes back or ends may have failed. -/
inductive Deed (κ ι ε : Type) where
  | added (w : Watch κ ι)
  | cancelled (w : Watch κ ι)
  | begun (topic : Topic) (subject : Option ι)
  | called (k : κ)
  | returned (o : Option (Fault ε))
  | ended (o : Option (Fault ε))

/-- What was done with watches, latest first. -/
abbrev History (κ ι ε : Type) := List (Deed κ ι ε)

/-- A watch that was set up, with how much had been done before. -/
structure Registration (κ ι : Type) where
  number : Nat
  watch : Watch κ ι

/-- The oldest of the registrations of a watch. -/
def IsOldest (P : Registration κ ι → Prop) (w : Watch κ ι) (r : Registration κ ι) : Prop :=
  P r ∧ r.watch = w ∧ ∀ q, P q → q.watch = w → r.number ≤ q.number

namespace History

/-- The registrations that are live after a history. A cancellation ends the oldest live one of its
    watch. -/
def Live : History κ ι ε → Registration κ ι → Prop
  | [], _ => False
  | .added w :: h, r => Live h r ∨ r = ⟨h.length, w⟩
  | .cancelled w :: h, r => Live h r ∧ ¬IsOldest (Live h) w r
  | _ :: h, r => Live h r

end History

end Watches

/-- A watch is for a topic, and for every subject or this one. -/
def Watch.IsFor {κ ι : Type} (w : Watch κ ι) (topic : Topic) (subject : Option ι) : Prop :=
  w.topic = topic ∧ (w.subject = none ∨ w.subject = subject)

namespace Watches

/-- The registrations with a property, in the order in which they were made. -/
structure InOrder {κ ι : Type} (P : Registration κ ι → Prop) (rs : List (Registration κ ι)) :
    Prop where
  sorted : rs.Pairwise fun r q => r.number < q.number
  mem : ∀ r, r ∈ rs ↔ P r

namespace History

variable {κ ι ε : Type}

/-- The watchers that are due for an event: those of the live registrations for it, in the order of
    the registrations. -/
def Due (h : History κ ι ε) (topic : Topic) (subject : Option ι) (ks : List κ) : Prop :=
  ∃ rs, InOrder (fun r => h.Live r ∧ r.watch.IsFor topic subject) rs ∧
    ks = rs.map fun r => r.watch.watcher

/-! ## Lawful histories -/

mutual

/-- What is done from one history to a longer one is lawful. -/
inductive Lawful : History κ ι ε → History κ ι ε → Prop
  | refl (h : History κ ι ε) : Lawful h h
  | added {a h : History κ ι ε} (w : Watch κ ι) (hlawful : Lawful a h) :
      Lawful a (.added w :: h)
  | cancelled {a h : History κ ι ε} (w : Watch κ ι) (hlawful : Lawful a h) :
      Lawful a (.cancelled w :: h)
  /-- An event calls those who were due when it began. -/
  | emitted {a h h' : History κ ι ε} {topic : Topic} {subject : Option ι} {ks : List κ}
      {o : Option (Fault ε)} (hlawful : Lawful a h) (hdue : h.Due topic subject ks)
      (hcalls : Delivered (.begun topic subject :: h) ks o h') : Lawful a (.ended o :: h')

/-- From one history to a longer one watchers are called, each of them or all up to one that
    fails. -/
inductive Delivered : History κ ι ε → List κ → Option (Fault ε) → History κ ι ε → Prop
  | all (h : History κ ι ε) : Delivered h [] none h
  | returned {h h' h'' : History κ ι ε} {k : κ} {ks : List κ} {o : Option (Fault ε)}
      (hlawful : Lawful (.called k :: h) h') (hrest : Delivered (.returned none :: h') ks o h'') :
      Delivered h (k :: ks) o h''
  /-- Whoever comes after a watcher that fails is not called, and its failure is that of the
      event. -/
  | raised {h h' : History κ ι ε} {k : κ} {ks : List κ} {f : Fault ε}
      (hlawful : Lawful (.called k :: h) h') :
      Delivered h (k :: ks) (some f) (.returned (some f) :: h')

end

end History

/-! ## Programs that use watches -/

/-- A program that uses watches, as the one that begins and as a watcher's own. It may look at the
    machine and at a state of its own and change both, and may go on after an event that failed;
    `α` is what watchers are told beside the event. -/
inductive Routine (κ ι ε τ α : Type) where
  | done
  | fail (f : Fault ε)
  | act (f : Machine × τ → Machine × τ) (next : Machine × τ → Routine κ ι ε τ α)
  | add (w : Watch κ ι) (next : Routine κ ι ε τ α)
  | cancel (w : Watch κ ι) (next : Routine κ ι ε τ α)
  | emit (topic : Topic) (subject : Option ι) (x : α)
      (next : Option (Fault ε) → Routine κ ι ε τ α)

/-- The watches, the state of the programs that use them, and what was done so far. -/
structure Hub (κ ι ε τ : Type) where
  watches : Watches κ ι := {}
  own : τ
  history : History κ ι ε := []

end Watches

namespace Run

variable {ε σ : Type}

/-- How a computation ends: its failure, if it fails, and what it leaves. -/
def endOf (r : Run ε σ Unit) (s : Machine × σ) : Option (Fault ε) × (Machine × σ) :=
  match r s with
  | .ok _ t => (none, t)
  | .error f t => (some f, t)

/-- Goes on with the failure of a computation as its result. -/
def caught (r : Run ε σ Unit) : Run ε σ (Option (Fault ε)) :=
  fun s => .ok (r.endOf s).1 (r.endOf s).2

/-- Fails with a failure that was caught. -/
def rethrow : Option (Fault ε) → Run ε σ Unit
  | none => pure ()
  | some f => throw f

variable {r q : Run ε σ Unit} {s t : Machine × σ} {f : Fault ε}

theorem endOf_bind_none (h : r.endOf s = (none, t)) : (r >>= fun _ => q).endOf s = q.endOf t := by
  simp only [endOf, Bind.bind, EStateM.bind] at h ⊢
  cases hr : r s with
  | ok x u =>
      simp only [hr, Prod.mk.injEq, true_and] at h
      rw [h]
  | error g u => simp [hr] at h

theorem endOf_bind_some (h : r.endOf s = (some f, t)) :
    (r >>= fun _ => q).endOf s = (some f, t) := by
  simp only [endOf, Bind.bind, EStateM.bind] at h ⊢
  cases hr : r s with
  | ok x u => simp [hr] at h
  | error g u => simpa only [hr] using h

end Run

namespace Watches

variable {κ ι ε τ α : Type}

namespace Hub

/-- Notes that something was done. -/
def note (d : Deed κ ι ε) (u : Hub κ ι ε τ) : Hub κ ι ε τ :=
  { u with history := d :: u.history }

/-- Sets up a watch. -/
def add (w : Watch κ ι) (u : Hub κ ι ε τ) : Hub κ ι ε τ :=
  { u with watches := u.watches.add w, history := .added w :: u.history }

/-- Cancels a watch. -/
def cancel [DecidableEq κ] [DecidableEq ι] (w : Watch κ ι) (u : Hub κ ι ε τ) : Hub κ ι ε τ :=
  { u with watches := u.watches.cancel w, history := .cancelled w :: u.history }

/-- Carries out a computation, and notes that it begins and how it ends. -/
def noted (first : Deed κ ι ε) (last : Option (Fault ε) → Deed κ ι ε)
    (r : Run ε (Hub κ ι ε τ) Unit) : Run ε (Hub κ ι ε τ) Unit := do
  Run.modifyWatchers (note first)
  let o ← r.caught
  Run.modifyWatchers (note (last o))
  Run.rethrow o

/-- Calls those who watch. -/
def told [DecidableEq ι] (body : κ → Run ε (Hub κ ι ε τ) Unit) (topic : Topic)
    (subject : Option ι) : Run ε (Hub κ ι ε τ) Unit :=
  noted (.begun topic subject) .ended <|
    Watches.emit Hub.watches (fun k => noted (.called k) .returned (body k)) topic subject

end Hub

/-- Carries out a program, given what an event comes to. -/
def Routine.run [DecidableEq κ] [DecidableEq ι]
    (emit : Topic → Option ι → α → Run ε (Hub κ ι ε τ) Unit) :
    Routine κ ι ε τ α → Run ε (Hub κ ι ε τ) Unit
  | .done => pure ()
  | .fail f => throw f
  | .act f next => fun s =>
      let (m, x) := f (s.1, s.2.own)
      (next (m, x)).run emit (m, { s.2 with own := x })
  | .add w next => do
      Run.modifyWatchers (Hub.add w)
      next.run emit
  | .cancel w next => do
      Run.modifyWatchers (Hub.cancel w)
      next.run emit
  | .emit topic subject x next => do
      let o ← (emit topic subject x).caught
      (next o).run emit

/-- Tells an event to watchers with programs of their own, who may call each other `depth` levels
    deep and fail beyond that. -/
def Hub.emit [DecidableEq κ] [DecidableEq ι] (limit : Fault ε)
    (body : κ → α → Routine κ ι ε τ α) : Nat → Topic → Option ι → α → Run ε (Hub κ ι ε τ) Unit
  | 0, topic, subject, _ => told (fun _ => throw limit) topic subject
  | depth + 1, topic, subject, x =>
      told (fun k => (body k x).run (Hub.emit limit body depth)) topic subject

/-! ## Registrations in order -/

theorem hears_iff [DecidableEq ι] (w : Watch κ ι) (topic : Topic) (subject : Option ι) :
    w.hears topic subject = true ↔ w.IsFor topic subject := by
  simp only [Watch.hears, Watch.IsFor, Bool.and_eq_true, Bool.or_eq_true, beq_iff_eq,
    Option.isNone_iff_eq_none]

namespace InOrder

variable {P : Registration κ ι → Prop} {rs : List (Registration κ ι)}

/-- One more registration, later than the others. -/
theorem append (h : InOrder P rs) {r : Registration κ ι}
    (hlater : ∀ q, P q → q.number < r.number) :
    InOrder (fun q => P q ∨ q = r) (rs ++ [r]) where
  sorted := by
    refine List.pairwise_append.2 ⟨h.sorted, List.pairwise_singleton _ _, ?_⟩
    intro q hq q' hq'
    obtain rfl := List.mem_singleton.1 hq'
    exact hlater q ((h.mem q).1 hq)
  mem q := by rw [List.mem_append, List.mem_singleton, h.mem]

theorem filter (h : InOrder P rs) {Q : Registration κ ι → Prop} {q : Registration κ ι → Bool}
    (hq : ∀ r, q r = true ↔ Q r) : InOrder (fun r => P r ∧ Q r) (rs.filter q) where
  sorted := h.sorted.filter q
  mem r := by rw [List.mem_filter, h.mem, hq]

/-- A registration behind those that are not of its watch is the oldest of its watch. -/
theorem isOldest_iff {before after : List (Registration κ ι)} {first : Registration κ ι}
    (h : InOrder P (before ++ first :: after)) (hbefore : ∀ r ∈ before, r.watch ≠ first.watch)
    (r : Registration κ ι) : IsOldest P first.watch r ↔ r = first := by
  obtain ⟨-, hsorted, -⟩ := List.pairwise_append.1 h.sorted
  have hfirst : P first := (h.mem first).1 (List.mem_append_right _ List.mem_cons_self)
  -- of the same watch only those behind it are left, and these are later
  have hlater {q : Registration κ ι} (hq : P q) (hw : q.watch = first.watch) :
      q = first ∨ first.number < q.number := by
    rcases List.mem_append.1 ((h.mem q).2 hq) with hmem | hmem
    · exact absurd hw (hbefore q hmem)
    · rcases List.mem_cons.1 hmem with rfl | hmem
      · exact .inl rfl
      · exact .inr (List.rel_of_pairwise_cons hsorted hmem)
  constructor
  · rintro ⟨hr, hw, hleast⟩
    rcases hlater hr hw with heq | hlt
    · exact heq
    · exact absurd (hleast first hfirst rfl) (Nat.not_le.2 hlt)
  · rintro rfl
    refine ⟨hfirst, rfl, fun q hq hw => ?_⟩
    rcases hlater hq hw with rfl | hlt
    · exact Nat.le_refl _
    · exact Nat.le_of_lt hlt

/-- Without one of them the registrations are the others. -/
theorem mem_without {before after : List (Registration κ ι)} {first : Registration κ ι}
    (h : InOrder P (before ++ first :: after)) (r : Registration κ ι) :
    r ∈ before ++ after ↔ P r ∧ r ≠ first := by
  obtain ⟨-, hsorted, hacross⟩ := List.pairwise_append.1 h.sorted
  rw [← h.mem, List.mem_append, List.mem_append, List.mem_cons]
  constructor
  · intro hmem
    have hne : r ≠ first := by
      rintro rfl
      rcases hmem with hmem | hmem
      · exact Nat.lt_irrefl _ (hacross r hmem r List.mem_cons_self)
      · exact Nat.lt_irrefl _ (List.rel_of_pairwise_cons hsorted hmem)
    exact ⟨hmem.imp_right .inr, hne⟩
  · rintro ⟨hmem, hne⟩
    exact hmem.imp_right fun h => h.resolve_left hne

/-- Without the first of a watch the registrations are those but the oldest of it. -/
theorem eraseP [DecidableEq κ] [DecidableEq ι] (h : InOrder P rs) (w : Watch κ ι) :
    InOrder (fun r => P r ∧ ¬IsOldest P w r) (rs.eraseP fun r => w == r.watch) where
  sorted := h.sorted.sublist List.eraseP_sublist
  mem r := by
    rcases List.eraseP_eq_iff.1 (rfl : rs.eraseP (fun r => w == r.watch) = _) with
      ⟨hnone, hself⟩ | ⟨first, before, after, hbefore, hfirst, hrs, herased⟩
    · rw [← hself, h.mem]
      refine ⟨fun hr => ⟨hr, ?_⟩, And.left⟩
      rintro ⟨-, hw, -⟩
      exact hnone r ((h.mem r).2 hr) (beq_iff_eq.2 hw.symm)
    · subst hrs
      obtain rfl := beq_iff_eq.1 hfirst
      have hothers : ∀ r ∈ before, r.watch ≠ first.watch :=
        fun r hr hw => hbefore r hr (beq_iff_eq.2 hw.symm)
      rw [herased, h.mem_without, h.isOldest_iff hothers]

end InOrder

/-- What is live was set up before. -/
theorem History.Live.number_lt {h : History κ ι ε} {r : Registration κ ι} (hlive : h.Live r) :
    r.number < h.length := by
  induction h with
  | nil => cases hlive
  | cons d h ih =>
      rw [List.length_cons]
      cases d with
      | added w =>
          rcases hlive with hlive | rfl
          · exact Nat.lt_succ_of_lt (ih hlive)
          · exact Nat.lt_succ_self _
      | cancelled w => exact Nat.lt_succ_of_lt (ih hlive.1)
      | begun | called | returned | ended => exact Nat.lt_succ_of_lt (ih hlive)

/-! ## The list of watches has the live registrations -/

namespace Hub

/-- The list of watches has the live registrations, in the order in which they were made. -/
def Reflects (u : Hub κ ι ε τ) : Prop :=
  ∃ rs, InOrder u.history.Live rs ∧ u.watches.list = rs.map (·.watch)

variable {u : Hub κ ι ε τ}

theorem reflects_new (x : τ) : ({ own := x } : Hub κ ι ε τ).Reflects :=
  ⟨[], ⟨.nil, fun _ => ⟨(nomatch ·), False.elim⟩⟩, rfl⟩

theorem Reflects.add (hu : u.Reflects) (w : Watch κ ι) : (u.add w).Reflects := by
  obtain ⟨rs, hrs, hlist⟩ := hu
  let r : Registration κ ι := ⟨u.history.length, w⟩
  have hlater : ∀ q, u.history.Live q → q.number < r.number := fun q hq => hq.number_lt
  refine ⟨rs ++ [r], hrs.append hlater, ?_⟩
  rw [List.map_append, ← hlist]
  rfl

theorem Reflects.cancel [DecidableEq κ] [DecidableEq ι] (hu : u.Reflects) (w : Watch κ ι) :
    (u.cancel w).Reflects := by
  obtain ⟨rs, hrs, hlist⟩ := hu
  refine ⟨rs.eraseP fun r => w == r.watch, hrs.eraseP w, ?_⟩
  show u.watches.list.erase w = _
  rw [hlist, List.erase_eq_eraseP, List.eraseP_map]
  rfl

/-- Those are called who are due. -/
theorem Reflects.due [DecidableEq ι] (hu : u.Reflects) (topic : Topic) (subject : Option ι) :
    u.history.Due topic subject (u.watches.hearers topic subject) := by
  obtain ⟨rs, hrs, hlist⟩ := hu
  refine ⟨_, hrs.filter fun r => hears_iff r.watch topic subject, ?_⟩
  rw [Watches.hearers, hlist, List.filter_map, List.map_map]
  rfl

/-! ## What a program brings about -/

/-- From a history on everything was lawful. -/
structure Orderly (a : History κ ι ε) (u : Hub κ ι ε τ) : Prop where
  lawful : History.Lawful a u.history
  reflects : u.Reflects

/-- A computation only does what is lawful. -/
def Obeys (r : Run ε (Hub κ ι ε τ) Unit) : Prop :=
  ∀ a s, s.2.Orderly a → (r.endOf s).2.2.Orderly a

variable {s t : Machine × Hub κ ι ε τ} {o : Option (Fault ε)}

theorem endOf_noted {first : Deed κ ι ε} {r : Run ε (Hub κ ι ε τ) Unit}
    (last : Option (Fault ε) → Deed κ ι ε) (h : r.endOf (s.1, s.2.note first) = (o, t)) :
    (noted first last r).endOf s = (o, t.1, t.2.note (last o)) := by
  have hrun : (noted first last r).endOf s =
      (Run.rethrow (r.endOf (s.1, s.2.note first)).1).endOf
        ((r.endOf (s.1, s.2.note first)).2.1,
          (r.endOf (s.1, s.2.note first)).2.2.note (last (r.endOf (s.1, s.2.note first)).1)) := rfl
  rw [hrun, h]
  cases o <;> rfl

/-- Watchers that only do what is lawful are called as they are due. -/
theorem delivered_forM {body : κ → Run ε (Hub κ ι ε τ) Unit} (hbody : ∀ k, Obeys (body k))
    (ks : List κ) (s : Machine × Hub κ ι ε τ) (hs : s.2.Reflects) :
    let t := (ks.forM fun k => noted (.called k) .returned (body k)).endOf s
    History.Delivered s.2.history ks t.1 t.2.2.history ∧ t.2.2.Reflects := by
  induction ks generalizing s with
  | nil => exact ⟨.all _, hs⟩
  | cons k ks ih =>
      have hcons : (k :: ks).forM (fun k => noted (.called k) .returned (body k)) =
          (noted (.called k) .returned (body k) >>= fun _ =>
            ks.forM fun k => noted (.called k) .returned (body k)) := rfl
      -- what the watcher does itself is lawful from its call on
      have hcalled : (s.2.note (.called k)).Orderly (.called k :: s.2.history) := ⟨.refl _, hs⟩
      have hcame := hbody k _ (s.1, s.2.note (.called k)) hcalled
      rcases hend : (body k).endOf (s.1, s.2.note (.called k)) with ⟨o, t⟩
      rw [hend] at hcame
      have hcall := endOf_noted .returned hend
      cases o with
      | none =>
          obtain ⟨hrest, hreflects⟩ := ih (t.1, t.2.note (.returned none)) hcame.reflects
          rw [hcons, Run.endOf_bind_none hcall]
          exact ⟨.returned hcame.lawful hrest, hreflects⟩
      | some f =>
          rw [hcons, Run.endOf_bind_some hcall]
          exact ⟨.raised hcame.lawful, hcame.reflects⟩

/-- An event is lawful if its watchers only do what is lawful. -/
theorem obeys_told [DecidableEq ι] {body : κ → Run ε (Hub κ ι ε τ) Unit}
    (hbody : ∀ k, Obeys (body k)) (topic : Topic) (subject : Option ι) :
    Obeys (told body topic subject) := by
  intro a s hs
  -- the watchers are fixed before the first of them is called
  let ks := s.2.watches.hearers topic subject
  have hdue : s.2.history.Due topic subject ks := hs.reflects.due topic subject
  have hdelivered := delivered_forM hbody ks (s.1, s.2.note (.begun topic subject)) hs.reflects
  rcases hend : (ks.forM fun k => noted (.called k) .returned (body k)).endOf
    (s.1, s.2.note (.begun topic subject)) with ⟨o, t⟩
  rw [hend] at hdelivered
  have htold : (told body topic subject).endOf s = (o, t.1, t.2.note (.ended o)) :=
    endOf_noted .ended hend
  rw [htold]
  exact ⟨.emitted hs.lawful hdue hdelivered.1, hdelivered.2⟩

end Hub

variable [DecidableEq κ] [DecidableEq ι]

/-- A program only does what is lawful if events do. -/
theorem Routine.obeys_run {emit : Topic → Option ι → α → Run ε (Hub κ ι ε τ) Unit}
    (hemit : ∀ topic subject x, Hub.Obeys (emit topic subject x)) (p : Routine κ ι ε τ α) :
    Hub.Obeys (p.run emit) := by
  induction p with
  | done => exact fun _ _ hs => hs
  | fail f => exact fun _ _ hs => hs
  | act f next ih => exact fun a s hs => ih _ a _ ⟨hs.lawful, hs.reflects⟩
  | add w next ih =>
      exact fun a s hs => ih a (s.1, s.2.add w) ⟨hs.lawful.added w, hs.reflects.add w⟩
  | cancel w next ih =>
      exact fun a s hs => ih a (s.1, s.2.cancel w) ⟨hs.lawful.cancelled w, hs.reflects.cancel w⟩
  | emit topic subject x next ih => exact fun a s hs => ih _ a _ (hemit topic subject x a s hs)

namespace Hub

theorem obeys_emit (limit : Fault ε) (body : κ → α → Routine κ ι ε τ α) (depth : Nat)
    (topic : Topic) (subject : Option ι) (x : α) :
    Obeys (Hub.emit limit body depth topic subject x) := by
  induction depth generalizing topic subject x with
  | zero =>
      have hlimit : Obeys (throw limit : Run ε (Hub κ ι ε τ) Unit) := fun _ _ hs => hs
      exact obeys_told (fun _ => hlimit) topic subject
  | succ depth ih =>
      exact obeys_told (fun k => Routine.obeys_run ih (body k x)) topic subject

/-- Whatever programs use the watches, as the one that begins and as watchers that are called:
    all that is done is lawful, and the list of watches has the live registrations in order. -/
theorem lawful_run (limit : Fault ε) (body : κ → α → Routine κ ι ε τ α) (depth : Nat)
    (p : Routine κ ι ε τ α) (m : Machine) (x : τ) :
    let u := ((p.run (Hub.emit limit body depth)).endOf (m, { own := x })).2.2
    History.Lawful [] u.history ∧ u.Reflects := by
  have hnew : ({ own := x } : Hub κ ι ε τ).Orderly [] := ⟨.refl [], reflects_new x⟩
  have hend := p.obeys_run (obeys_emit limit body depth) [] (m, { own := x }) hnew
  exact ⟨hend.lawful, hend.reflects⟩

/-- A watcher that is set up twice and cancels its watch when it is called is called twice, though
    its second watch is cancelled before that is served, and not again. -/
example :
    let w : Watch Bool Unit := ⟨.pc, none, true⟩
    let p : Routine Bool Unit Empty Unit Unit :=
      .add w (.add w (.emit .pc none () fun _ => .emit .pc none () fun _ => .done))
    let u := ((p.run (Hub.emit .noName (fun _ _ => .cancel w (.cancel w .done)) 1)).endOf
      (.ofSize 0, { own := () })).2.2
    u.history =
      [.ended none, .begun .pc none, .ended none,
        .returned none, .cancelled w, .cancelled w, .called true,
        .returned none, .cancelled w, .cancelled w, .called true,
        .begun .pc none, .added w, .added w] ∧ u.watches.list = [] :=
  ⟨rfl, rfl⟩

end Hub

end Watches

end Lab8085
