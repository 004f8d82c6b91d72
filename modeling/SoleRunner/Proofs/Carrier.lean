import SoleRunner.Proofs.Race

/-!
# Proofs/Carrier — it does not matter which OS thread executes the caller of a system call

A runner that is its own executor makes a system call by handing the executor role over; one that another
thread executes is woken to make the call itself.  These are different sections, in a different order,
but they come to the same thing.  `Ledger.SameCourse` is what two ledgers share that differ in the
executor, and `carriers_agree` says that in two crews on the same course a system call fails alike, or
ends on the same course with the same contexts handed out.
-/

namespace SoleRunner

namespace Ledger

variable {C σ : Type} {m n k : Ledger C σ} {tid next : ThreadId} {c : C} {s : σ}

/-- **The threads are in the same states**, in `m` and in `n`, and the same is to happen next; the saved
contexts may differ, and so may the executor and who is called. -/
structure SameStage (m n : Ledger C σ) : Prop where
  state_eq : ∀ u, m.table.state? u = n.table.state? u
  runner_eq : m.runner = n.runner
  captured_eq : m.captured = n.captured
  owes_eq : m.owesUncapture = n.owesUncapture
  armed_eq : m.armed = n.armed
  /-- The calls of a scheduler are part of its state if it is one that keeps a journal. -/
  scheduler_eq : m.schedulerState = n.schedulerState

/-- **The threads and their contexts are the same**, in `m` and in `n`. -/
structure SameCourse (m n : Ledger C σ) : Prop extends SameStage m n where
  table_eq : m.table = n.table

theorem SameStage.refl (m : Ledger C σ) : m.SameStage m := ⟨fun _ => rfl, rfl, rfl, rfl, rfl, rfl⟩

theorem SameStage.withSaved (h : m.SameStage n) (tid : ThreadId) (c : C) :
    (m.withSaved tid c).SameStage n where
  state_eq u := Table.state?_save.trans (h.state_eq u)
  runner_eq := h.runner_eq
  captured_eq := h.captured_eq
  owes_eq := h.owes_eq
  armed_eq := h.armed_eq
  scheduler_eq := h.scheduler_eq

theorem SameStage.symm (h : m.SameStage n) : n.SameStage m :=
  ⟨fun u => (h.state_eq u).symm, h.runner_eq.symm, h.captured_eq.symm, h.owes_eq.symm, h.armed_eq.symm,
    h.scheduler_eq.symm⟩

theorem SameStage.trans (h : m.SameStage n) (h' : n.SameStage k) : m.SameStage k :=
  ⟨fun u => (h.state_eq u).trans (h'.state_eq u), h.runner_eq.trans h'.runner_eq,
    h.captured_eq.trans h'.captured_eq, h.owes_eq.trans h'.owes_eq, h.armed_eq.trans h'.armed_eq,
    h.scheduler_eq.trans h'.scheduler_eq⟩

namespace SameCourse

theorem balanced (h : m.SameCourse n) (hb : m.table.Balanced m.captured m.runner) :
    n.table.Balanced n.captured n.runner := by
  rwa [← h.table_eq, ← h.captured_eq, ← h.runner_eq]

theorem withSaved (h : m.SameCourse n) (tid : ThreadId) (c : C) :
    (m.withSaved tid c).SameCourse (n.withSaved tid c) where
  state_eq u := by rw [Ledger.withSaved, Ledger.withSaved, h.table_eq]
  runner_eq := h.runner_eq
  captured_eq := h.captured_eq
  owes_eq := h.owes_eq
  armed_eq := h.armed_eq
  scheduler_eq := h.scheduler_eq
  table_eq := congrArg (Table.save · tid c) h.table_eq

/-- The same thread may replace the runner. -/
theorem replaced (h : m.SameCourse n) (next : ThreadId) (c : C) (s : σ) :
    (m.replaced next c s).SameCourse (n.replaced next c s) := by
  have htable : (m.replaced next c s).table = (n.replaced next c s).table := by
    simp only [Ledger.replaced, h.table_eq, h.runner_eq]
  exact ⟨⟨fun u => by rw [htable], rfl, congrArg (· - 1) h.captured_eq, h.owes_eq, h.armed_eq, rfl⟩,
    htable⟩

/-- Executor, permits, statistics and log are not part of the course. -/
theorem aside (m : Ledger C σ) (executor : ThreadId) (permits : Array Bool) (stats : Stats)
    (log : Array Log.Entry) : { m with executor, permits, stats, log }.SameCourse m where
  state_eq _ := rfl
  runner_eq := rfl
  captured_eq := rfl
  owes_eq := rfl
  armed_eq := rfl
  scheduler_eq := rfl
  table_eq := rfl

theorem symm (h : m.SameCourse n) : n.SameCourse m := ⟨h.toSameStage.symm, h.table_eq.symm⟩

theorem trans (h : m.SameCourse n) (h' : n.SameCourse k) : m.SameCourse k :=
  ⟨h.toSameStage.trans h'.toSameStage, h.table_eq.trans h'.table_eq⟩

end SameCourse

end Ledger

namespace Arbiter

open Critical Ledger

variable {C σ : Type} [Context C] {arb : Arbiter C σ} {m n : Ledger C σ} {tid next : ThreadId}
  {c d x : C} {s : σ}

/-! ## Two departures -/

/-- A scheduler's choice that is refused ends both departures, with the same fault. -/
theorem departs_alike_of_refused (h : m.SameCourse n) (hb : m.table.Balanced m.captured m.runner)
    (hr : m.runner ≠ .nobody) (hn : 2 ≤ m.captured) (hown : m.executor = m.runner)
    (hother : n.executor ≠ n.runner)
    (ha : arb.scheduler.choose m.runner c m.schedulerState = (next, d, s))
    (hnext : m.table.state? next ≠ some .idle) :
    ∃ e m' n', arb.depart m.runner c m = .error e m' ∧ arb.depart n.executor c n = .error e n' ∧
      m'.SameCourse n' := by
  have hb' := h.balanced hb
  have hr' : n.runner ≠ .nobody := h.runner_eq ▸ hr
  obtain ⟨v, hv⟩ := checkChoice_of_not_idle (t := m.table.save m.runner d)
    (by rwa [Table.state?_save])
  have hv' : checkChoice (n.table.save n.runner d) next = .error (.violation v) := by
    rwa [← h.table_eq, ← h.runner_eq]
  have ha' : arb.scheduler.choose n.runner c n.schedulerState = (next, d, s) := by
    rwa [← h.runner_eq, ← h.scheduler_eq]
  have hrep := replaceRunner_withSaved_of_check hb hr ha hv
  have hrep' := replaceRunner_withSaved_of_check hb' hr' ha' hv'
  have hdepart : arb.depart m.runner c m =
      .error (.violation v) { m.withSaved m.runner d with schedulerState := s } := by
    rw [depart_of_own hb hown hr, if_pos hn]
    exact bind_of_error (handOver_of_error m.runner hrep) _
  have hdepart' : arb.depart n.executor c n =
      .error (.violation v) { n.withSaved n.runner d with schedulerState := s } := by
    rw [depart_of_other hb' rfl hr' hother.symm]
    exact ship_of_error n.executor n.runner (h.captured_eq ▸ hn) hrep'
  have hsaved : (m.withSaved m.runner d).SameCourse (n.withSaved n.runner d) := by
    rw [← h.runner_eq]
    exact h.withSaved m.runner d
  exact ⟨_, _, _, hdepart, hdepart', { hsaved with scheduler_eq := rfl }⟩

/-- The departure of an executor from its own code, as it hands the role over. -/
theorem depart_of_own_chosen (hb : m.table.Balanced m.captured m.runner) (hr : m.runner ≠ .nobody)
    (hn : 2 ≤ m.captured) (hown : m.executor = m.runner)
    (ha : arb.scheduler.choose m.runner c m.schedulerState = (next, d, s))
    (hnext : m.table.state? next = some .idle) :
    ∃ m', arb.depart m.runner c m = .ok ⟨m.runner, .uncaptured, arb.stampPlain d⟩ m' ∧
      m'.SameCourse ((m.replaced next d s).withSaved m.runner (arb.stampPlain d)) ∧
      m'.executor = .nobody ∧ m'.permits = m.permits.setIfInBounds next.index true := by
  obtain ⟨log, hover⟩ := handOver_chosen hb hr ha hnext
  have hcourse : ((m.replaced next d s).handedOver log).SameCourse (m.replaced next d s) := .aside ..
  refine ⟨_, ?_, hcourse.withSaved m.runner (arb.stampPlain d), rfl, rfl⟩
  rw [depart_of_own hb hown hr, if_pos hn]
  exact hover

/-- The departure of an executor from another thread's code, as it ships the call. -/
theorem depart_of_other_chosen (hb : m.table.Balanced m.captured m.runner) (hr : m.runner ≠ .nobody)
    (hn : 2 ≤ m.captured) (hother : m.executor ≠ m.runner)
    (ha : arb.scheduler.choose m.runner c m.schedulerState = (next, d, s))
    (hnext : m.table.state? next = some .idle) (hx : m.table.saved? next = some x) :
    ∃ m', arb.depart m.executor c m = .ok ⟨next, .executor, arb.stampExecutor next x⟩ m' ∧
      m'.SameCourse ((m.replaced next d s).withSaved next (arb.stampExecutor next x)) ∧
      m'.executor = m.executor ∧ m'.permits = m.permits.setIfInBounds m.runner.index true := by
  obtain ⟨log, hship⟩ := ship_chosen hb hr hn ha hnext hx m.executor
  have hcourse : ((m.replaced next d s).shipped m.runner log).SameCourse (m.replaced next d s) :=
    .aside ..
  refine ⟨_, ?_, hcourse.withSaved next (arb.stampExecutor next x), rfl, rfl⟩
  rw [depart_of_other hb rfl hr hother.symm]
  exact hship

/-! ## The look that follows -/

/-- Whoever looks inside the program while the role is vacant takes it. -/
theorem lookAgain_takes (arb : Arbiter C σ) (hin : m.table.Inside tid) (he : m.executor = .nobody)
    (hr : m.runner ≠ .nobody) (hx : m.table.saved? m.runner = some x) :
    ∃ m', arb.lookAgain tid m =
        .ok (.resumed ⟨m.runner, .executor, arb.stampExecutor m.runner x⟩) m' ∧
      m'.SameCourse (m.withSaved m.runner (arb.stampExecutor m.runner x)) ∧ m'.executor = tid := by
  obtain ⟨log, htake⟩ := arb.takeRole_of_saved tid hr hx
  have hcourse : (m.ledBy tid log).SameCourse m := .aside ..
  refine ⟨_, ?_, hcourse.withSaved m.runner (arb.stampExecutor m.runner x), rfl⟩
  rw [lookAgain_of_inside hin, if_pos he, bind_of_ok htake]
  rfl

/-- Whoever looks outside it goes on to make its system call. -/
theorem lookAgain_releases (arb : Arbiter C σ) (hout : m.table.Outside tid)
    (hd : m.table.saved? tid = some d) :
    ∃ m', arb.lookAgain tid m = .ok (.resumed ⟨tid, .uncaptured, arb.stampPlain d⟩) m' ∧
      m'.SameCourse (m.withSaved tid (arb.stampPlain d)) ∧ m'.executor = m.executor := by
  obtain ⟨log, hvisit⟩ := arb.visit_releases hout hd
  have hcourse : (m.logged log).SameCourse m := .aside ..
  exact ⟨_, hvisit, hcourse.withSaved tid (arb.stampPlain d), rfl⟩

end Arbiter

namespace Crew

open Critical Arbiter Ledger

variable {C σ : Type} [Context C] {arb : Arbiter C σ} {w w₁ w₂ : Crew C σ} {m n : Ledger C σ}
  {tid u next : ThreadId} {c d x : C} {s : σ} {p : Place C}

/-! ## A thread that is called looks again -/

omit [Context C] in
theorem put_put (w : Crew C σ) (m n : Ledger C σ) (tid : ThreadId) (p q : Place C) :
    (w.put m tid p).put n tid q = w.put n tid q := by
  refine congrArg (Crew.mk n) (funext fun u => ?_)
  rcases eq_or_ne u tid with rfl | hu
  · rw [if_pos rfl, if_pos rfl]
  · rw [if_neg hu, if_neg hu, place_put_of_ne hu]

/-- What `u` does to go on with its arrival: its wait returns, unless it has already, and it looks. -/
def rejoins (w : Crew C σ) (u : ThreadId) : List (Move C σ) :=
  match w.place u with
  | .inside false => [.wake u, .look u]
  | _ => [.look u]

/-- **A thread that is called gets to look**, with its permit taken if it was still there. -/
theorem Called.run_rejoins (arb : Arbiter C σ) (hu : w.Called u) :
    ∃ n : Ledger C σ, n.SameCourse w.ledger ∧ n.executor = w.ledger.executor ∧
      ∀ a k, arb.lookAgain u n = .ok a k → w.run arb (w.rejoins u) = some (w.put k u a.place) := by
  obtain ⟨b, hb, hcall⟩ := hu
  cases b with
  | true =>
    refine ⟨w.ledger, .aside .., rfl, fun a k hlook => ?_⟩
    have hnext : w.next arb (.look u) = some (w.put k u a.place) := by
      simp only [Crew.next, hb]
      exact congrArg (w.handled u Arrival.place) hlook
    rw [rejoins, hb, run_cons, hnext]
    rfl
  | false =>
    have hpermit : w.ledger.hasPermit u = true := hcall.resolve_left Bool.false_ne_true
    refine ⟨w.ledger.woken u, .aside .., rfl, fun a k hlook => ?_⟩
    have hwake : w.next arb (.wake u) = some (w.put (w.ledger.woken u) u (.inside true)) := by
      simp only [Crew.next, hb, hpermit, if_true, left_takePermit]
    have hnext : (w.put (w.ledger.woken u) u (.inside true)).next arb (.look u) =
        some (w.put k u a.place) := by
      simp only [Crew.next, place_put_self]
      rw [← put_put w (w.ledger.woken u) k u (.inside true) a.place]
      exact congrArg (Crew.handled _ u Arrival.place) hlook
    rw [rejoins, hb, run_cons, hwake, Option.bind_some, run_cons, hnext]
    rfl

omit [Context C] in
/-- A permit calls whoever is inside the program and does not execute. -/
theorem Stationed.called_of_post (hw : w.Stationed) (tid : ThreadId) (hin : w.ledger.table.Inside u)
    (he : u ≠ w.ledger.executor) (hu : u ≠ tid)
    (hpost : n.permits = w.ledger.permits.setIfInBounds u.index true) : (w.put n tid p).Called u := by
  obtain ⟨b, hb⟩ := hw.waits u hin he
  obtain ⟨s, hs, -⟩ := hin
  have hslot : u.index < w.ledger.permits.size := by
    rw [hw.slots]
    exact Table.index_lt_of_state? hs
  exact ⟨b, (place_put_of_ne hu).trans hb, .inr (hasPermit_post_self hslot hpost)⟩

/-! ## A system call, until both threads go on -/

/-- **`tid` departs with `a`, and then `v`, which it called, goes on with `b`**: `m` is the ledger after
the departure, and `w'` the crew at the end. -/
structure Completes (arb : Arbiter C σ) (w : Crew C σ) (tid : ThreadId) (c : C) (a : Resume C)
    (m : Ledger C σ) (v : ThreadId) (b : Resume C) (w' : Crew C σ) : Prop where
  departs : arb.depart tid c w.ledger = .ok a m
  rejoins : (w.put m tid a.place).run arb ((w.put m tid a.place).rejoins v) = some w'
  place_caller : w'.place tid = a.place
  place_called : w'.place v = b.place

/-- A runner that is its own executor departs, and the scheduler's choice takes the role. -/
theorem Stationed.hands_over (hw : w.Stationed) (hr : w.ledger.runner ≠ .nobody)
    (hn : 2 ≤ w.ledger.captured) (hown : w.ledger.executor = w.ledger.runner)
    (ha : arb.scheduler.choose w.ledger.runner c w.ledger.schedulerState = (next, d, s))
    (hnext : w.ledger.table.state? next = some .idle) (hx : w.ledger.table.saved? next = some x) :
    ∃ m w', w.Completes arb w.ledger.runner c ⟨w.ledger.runner, .uncaptured, arb.stampPlain d⟩ m next
        ⟨next, .executor, arb.stampExecutor next x⟩ w' ∧
      m.SameStage (w.ledger.replaced next d s) ∧ m.executor = .nobody ∧
      w'.ledger.SameCourse (((w.ledger.replaced next d s).withSaved w.ledger.runner
        (arb.stampPlain d)).withSaved next (arb.stampExecutor next x)) ∧ w'.ledger.executor = next := by
  have hb := hw.sound.balanced
  have hne := hb.ne_runner_of_idle hnext
  obtain ⟨m, hdepart, hcourse, hvacant, hpost⟩ := depart_of_own_chosen hb hr hn hown ha hnext
  obtain ⟨n, hsame, hexec, hrun⟩ := (hw.called_of_post w.ledger.runner
    (Table.inside_of_state hnext (by decide)) (hown ▸ hne) hne hpost).run_rejoins arb
  -- the ledger at which the next thread looks
  have hrunner : n.runner = next := (hsame.trans hcourse).runner_eq
  have hstate : n.table.state? next = some .running := by
    rw [(hsame.trans hcourse).state_eq, withSaved, Table.state?_save]
    exact state?_replaced_next hne hnext
  have hsaved : n.table.saved? n.runner = some x := by
    rw [hrunner, (hsame.trans hcourse).table_eq, saved?_withSaved_of_ne hne,
      saved?_replaced_of_ne hne, hx]
  obtain ⟨k, hlook, hafter, htaken⟩ := arb.lookAgain_takes (Table.inside_of_state hstate (by decide))
    (hexec.trans hvacant) (hrunner ▸ hb.ne_nobody hnext) hsaved
  rw [hrunner] at hlook hafter
  refine ⟨m, _, ⟨hdepart, hrun _ _ hlook, ?_, place_put_self ..⟩, ?_, hvacant, ?_, htaken⟩
  · rw [place_put_of_ne hne.symm, place_put_self]
  · exact hcourse.toSameStage.trans (SameStage.withSaved (.refl _) _ _)
  · exact hafter.trans ((hsame.trans hcourse).withSaved _ _)

/-- Another executor departs from the runner's code, and the runner goes on to make its call. -/
theorem Stationed.ships_over (hw : w.Stationed) (hr : w.ledger.runner ≠ .nobody)
    (hn : 2 ≤ w.ledger.captured) (hother : w.ledger.executor ≠ w.ledger.runner)
    (ha : arb.scheduler.choose w.ledger.runner c w.ledger.schedulerState = (next, d, s))
    (hnext : w.ledger.table.state? next = some .idle) (hx : w.ledger.table.saved? next = some x) :
    ∃ m w', w.Completes arb w.ledger.executor c ⟨next, .executor, arb.stampExecutor next x⟩ m
        w.ledger.runner ⟨w.ledger.runner, .uncaptured, arb.stampPlain d⟩ w' ∧
      m.SameStage (w.ledger.replaced next d s) ∧ m.executor = w.ledger.executor ∧
      w'.ledger.SameCourse (((w.ledger.replaced next d s).withSaved w.ledger.runner
        (arb.stampPlain d)).withSaved next (arb.stampExecutor next x)) ∧
      w'.ledger.executor = w.ledger.executor := by
  have hb := hw.sound.balanced
  have hne := hb.ne_runner_of_idle hnext
  have hrunning := hb.runner_running hr
  obtain ⟨m, hdepart, hcourse, hkept, hpost⟩ := depart_of_other_chosen hb hr hn hother ha hnext hx
  obtain ⟨n, hsame, hexec, hrun⟩ := (hw.called_of_post w.ledger.executor (hb.runner_inside hr)
    hother.symm hother.symm hpost).run_rejoins arb
  -- the ledger at which the runner looks
  have hstate : n.table.Outside w.ledger.runner := by
    rw [Table.Outside, (hsame.trans hcourse).state_eq, withSaved, Table.state?_save]
    exact state?_replaced_runner hne hrunning
  have hsaved : n.table.saved? w.ledger.runner = some d := by
    rw [(hsame.trans hcourse).table_eq, saved?_withSaved_of_ne hne.symm, saved?_replaced_runner hrunning]
  obtain ⟨k, hlook, hafter, hstill⟩ := arb.lookAgain_releases hstate hsaved
  refine ⟨m, _, ⟨hdepart, hrun _ _ hlook, ?_, place_put_self ..⟩, ?_, hkept, ?_,
    hstill.trans (hexec.trans hkept)⟩
  · rw [place_put_of_ne hother, place_put_self]
  · exact hcourse.toSameStage.trans (SameStage.withSaved (.refl _) _ _)
  · rw [withSaved_comm hne.symm]
    exact hafter.trans ((hsame.trans hcourse).withSaved _ _)

/-! ## The two ways side by side -/

/-- **The system call that the runner makes with context `c` ends alike in both crews**, though in `w₁`
the runner is its own executor and in `w₂` it is not. -/
inductive CallsAlike (arb : Arbiter C σ) (w₁ w₂ : Crew C σ) (c : C) : Prop
  /-- Both departures fail in the same way. -/
  | fails {e : Fault} {m₁ m₂ : Ledger C σ}
      (own : arb.depart w₁.ledger.runner c w₁.ledger = .error e m₁)
      (other : arb.depart w₂.ledger.executor c w₂.ledger = .error e m₂) (course : m₁.SameCourse m₂)
  /-- The runner goes on with `call` in both crews, and somebody executes `next` with `go`: the thread of
  `next` in the first crew, and the executor in the second. -/
  | ends {next : ThreadId} {d : C} {s : σ} {call go : Resume C} {m₁ m₂ : Ledger C σ} {u₁ u₂ : Crew C σ}
      (hook : arb.scheduler.choose w₁.ledger.runner c w₁.ledger.schedulerState = (next, d, s))
      (call_eq : call = ⟨w₁.ledger.runner, .uncaptured, arb.stampPlain d⟩)
      (go_tid : go.tid = next) (go_role : go.role = .executor)
      (own : w₁.Completes arb w₁.ledger.runner c call m₁ next go u₁)
      (other : w₂.Completes arb w₂.ledger.executor c go m₂ w₂.ledger.runner call u₂)
      (stage : m₁.SameStage m₂) (runner : m₁.runner = next) (asked : m₁.schedulerState = s)
      (vacant : m₁.executor = .nobody) (kept : m₂.executor = w₂.ledger.executor)
      (course : u₁.ledger.SameCourse u₂.ledger) (taken : u₁.ledger.executor = next)
      (still : u₂.ledger.executor = w₂.ledger.executor)

/-- Two stationed crews on the same course. -/
theorem callsAlike_of_stationed (hw₁ : w₁.Stationed) (hw₂ : w₂.Stationed)
    (hcourse : w₁.ledger.SameCourse w₂.ledger) (hn : 2 ≤ w₁.ledger.captured)
    (hown : w₁.ledger.executor = w₁.ledger.runner) (hother : w₂.ledger.executor ≠ w₂.ledger.runner)
    (c : C) : CallsAlike arb w₁ w₂ c := by
  have hb := hw₁.sound.balanced
  have hr : w₁.ledger.runner ≠ .nobody := by
    intro hnone
    rw [hcourse.runner_eq] at hnone
    exact hw₂.executor_runs (hnone ▸ hother) hnone
  obtain ⟨next, d, s, ha⟩ : ∃ next d s,
      arb.scheduler.choose w₁.ledger.runner c w₁.ledger.schedulerState = (next, d, s) := ⟨_, _, _, rfl⟩
  by_cases hnext : w₁.ledger.table.state? next = some .idle
  · obtain ⟨x, hx⟩ := hb.saved next .idle hnext (by decide)
    have ha' : arb.scheduler.choose w₂.ledger.runner c w₂.ledger.schedulerState = (next, d, s) := by
      rwa [← hcourse.runner_eq, ← hcourse.scheduler_eq]
    obtain ⟨m₁, u₁, hown', hstage₁, hvacant, hcourse₁, htaken⟩ := hw₁.hands_over hr hn hown ha hnext hx
    obtain ⟨m₂, u₂, hother', hstage₂, hkept, hcourse₂, hstill⟩ := hw₂.ships_over
      (hcourse.runner_eq ▸ hr) (hcourse.captured_eq ▸ hn) hother ha' (hcourse.table_eq ▸ hnext)
      (hcourse.table_eq ▸ hx)
    have hreplaced := hcourse.replaced next d s
    rw [← hcourse.runner_eq] at hcourse₂ hother'
    refine .ends ha rfl rfl rfl hown' (hcourse.runner_eq ▸ hother') ?_ hstage₁.runner_eq
      hstage₁.scheduler_eq hvacant hkept ?_ htaken hstill
    · exact hstage₁.trans (hreplaced.toSameStage.trans hstage₂.symm)
    · exact hcourse₁.trans (((hreplaced.withSaved _ _).withSaved _ _).trans hcourse₂.symm)
  · obtain ⟨e, m₁, m₂, hown', hother', hafter⟩ :=
      departs_alike_of_refused hcourse hb hr hn hown hother ha hnext
    exact .fails hown' hother' hafter

variable {scheduler : Scheduler C σ} {initial : σ} {config : Config} {setup setup' : Setup C σ}
  {mvs₁ mvs₂ : List (Move C σ)}

/-- **It does not matter to a system call which OS thread executes its caller.**  Take two states that
crews of a new arbiter can reach, with the same threads, contexts and scheduler, in which at least two
threads are captured: in the first the runner is its own executor, and in the second it is not.  Then a
departure with the same context fails in both with the same fault, or goes through in both: once the
thread that it called has looked again, the runner makes its call with the same answer, the same thread
is executed with the same answer, and the crews are on the same course again. -/
theorem carriers_agree (h : create scheduler initial config setup = .ok (arb, m) setup')
    (hrun₁ : (new m).run arb mvs₁ = some w₁) (hrun₂ : (new m).run arb mvs₂ = some w₂)
    (hcourse : w₁.ledger.SameCourse w₂.ledger) (hn : 2 ≤ w₁.ledger.captured)
    (hown : w₁.ledger.executor = w₁.ledger.runner) (hother : w₂.ledger.executor ≠ w₂.ledger.runner)
    (c : C) : CallsAlike arb w₁ w₂ c :=
  callsAlike_of_stationed (stationed_of_run h hrun₁) (stationed_of_run h hrun₂) hcourse hn hown hother c

/-- The first of two threads executes itself, or the second one, which came first, has switched to it. -/
theorem carriers_agree_rotation :
    ∃ w₁ w₂ : Crew Cursor Rotation,
      (new (.fresh 2 {})).run twoSlots [.start ⟨0⟩ (.start ⟨0⟩), .arrive ⟨0⟩, .start ⟨1⟩ (.start ⟨1⟩),
        .compute ⟨1⟩ ((Cursor.start ⟨1⟩).setReg ⟨1⟩ ThreadId.nobody.toReg), .arrive ⟨1⟩] = some w₁ ∧
      (new (.fresh 2 {})).run twoSlots [.start ⟨1⟩ (.start ⟨1⟩), .arrive ⟨1⟩, .start ⟨0⟩ (.start ⟨0⟩),
        .arrive ⟨0⟩, .compute ⟨1⟩ (((Cursor.start ⟨1⟩).setReg ⟨0⟩ 1).setReg ⟨1⟩ (ThreadId.toReg ⟨0⟩)),
        .switch ⟨1⟩, .think ⟨[⟨1⟩]⟩] = some w₂ ∧
      w₁.ledger.executor = w₁.ledger.runner ∧ w₂.ledger.executor ≠ w₂.ledger.runner ∧
      ∀ c, CallsAlike twoSlots w₁ w₂ c := by
  obtain ⟨setup, h⟩ := create_twoSlots
  obtain ⟨w₁, w₂, hw₁, hw₂, htable, ⟨hr₁, hr₂⟩, ⟨hn₁, hn₂⟩, howes, harmed, hsched, he₁, he₂⟩ :
      ∃ w₁ w₂ : Crew Cursor Rotation,
        (new (.fresh 2 {})).run twoSlots [.start ⟨0⟩ (.start ⟨0⟩), .arrive ⟨0⟩,
          .start ⟨1⟩ (.start ⟨1⟩), .compute ⟨1⟩ ((Cursor.start ⟨1⟩).setReg ⟨1⟩ ThreadId.nobody.toReg),
          .arrive ⟨1⟩] = some w₁ ∧
        (new (.fresh 2 {})).run twoSlots [.start ⟨1⟩ (.start ⟨1⟩), .arrive ⟨1⟩,
          .start ⟨0⟩ (.start ⟨0⟩), .arrive ⟨0⟩,
          .compute ⟨1⟩ (((Cursor.start ⟨1⟩).setReg ⟨0⟩ 1).setReg ⟨1⟩ (ThreadId.toReg ⟨0⟩)),
          .switch ⟨1⟩, .think ⟨[⟨1⟩]⟩] = some w₂ ∧
        w₁.ledger.table = w₂.ledger.table ∧
        (w₁.ledger.runner = ⟨0⟩ ∧ w₂.ledger.runner = ⟨0⟩) ∧
        (w₁.ledger.captured = 2 ∧ w₂.ledger.captured = 2) ∧
        w₁.ledger.owesUncapture = w₂.ledger.owesUncapture ∧ w₁.ledger.armed = w₂.ledger.armed ∧
        w₁.ledger.schedulerState = w₂.ledger.schedulerState ∧
        w₁.ledger.executor = ⟨0⟩ ∧ w₂.ledger.executor = ⟨1⟩ :=
    ⟨_, _, rfl, rfl, rfl, ⟨rfl, rfl⟩, ⟨rfl, rfl⟩, rfl, rfl, rfl, rfl, rfl⟩
  have hcourse : w₁.ledger.SameCourse w₂.ledger :=
    ⟨⟨fun u => by rw [htable], hr₁.trans hr₂.symm, hn₁.trans hn₂.symm, howes, harmed, hsched⟩, htable⟩
  have hown : w₁.ledger.executor = w₁.ledger.runner := he₁.trans hr₁.symm
  have hother : w₂.ledger.executor ≠ w₂.ledger.runner := by
    rw [he₂, hr₂]
    decide
  exact ⟨w₁, w₂, hw₁, hw₂, hown, hother,
    carriers_agree h hw₁ hw₂ hcourse (Nat.le_of_eq hn₁.symm) hown hother⟩

end Crew

end SoleRunner
