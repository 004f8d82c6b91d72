import SoleRunner.Arbiter.Arrival
import SoleRunner.Proofs.Steps

/-!
# Proofs/Outcome/Arrival — every way in which an arrival's critical sections can end

`Arrives` lists the ends of the first section, and `Looks` those of a later one, each with the answer
and the ledger that it leaves; `arrive_outcome` and `lookAgain_outcome` say that on a sound ledger there
are no others.  What an arrival preserves is read off these two, one case per end.
-/

namespace SoleRunner

namespace Ledger

variable {C σ : Type} {m : Ledger C σ} {tid : ThreadId} {c : C} {p : Scheduler C σ}

/-- The ledger once `tid` has joined the captured threads with context `c`. -/
def entered (m : Ledger C σ) (p : Scheduler C σ) (tid : ThreadId) (c : C) : Ledger C σ :=
  (m.withSaved tid c).joined p tid

@[simp] theorem entered_permits : (m.entered p tid c).permits = m.permits := rfl

/-- The ledger once an uncapture that was owed has been made: nobody has the executor role. -/
@[simps table permits runner executor owesUncapture]
def debtPaid (m : Ledger C σ) (log : Array Log.Entry) : Ledger C σ :=
  { m with
    executor := .nobody
    owesUncapture := false
    stats := { m.stats with delayed := m.stats.delayed + 1 }
    log }

/-- The ledger once `tid` has taken the executor role. -/
@[simps table permits runner executor owesUncapture]
def ledBy (m : Ledger C σ) (tid : ThreadId) (log : Array Log.Entry) : Ledger C σ :=
  { m with executor := tid, log }

/-- The ledger once an uncapture that was owed has been called off. -/
@[simps table permits runner executor owesUncapture]
def cleared (m : Ledger C σ) (log : Array Log.Entry) : Ledger C σ :=
  { m with owesUncapture := false, log }

theorem entered_balanced (h : m.table.Balanced m.captured m.runner) (p : Scheduler C σ) (c : C)
    (hs : m.table.state? tid = some .uncaptured) :
    (m.entered p tid c).table.Balanced (m.entered p tid c).captured (m.entered p tid c).runner := by
  have hsave : (m.table.save tid c).Balanced m.captured m.runner := h.save
  have hs' : (m.table.save tid c).state? tid = some .uncaptured := by rw [Table.state?_save, hs]
  have hc : (m.table.save tid c).saved? tid = some c := Table.saved?_save_self hs
  by_cases h0 : m.captured = 0
  · simp only [entered, joined, withSaved, h0, if_true]
    rw [h0] at hsave
    exact hsave.markFirst hs' hc
  · simp only [entered, joined, withSaved, h0, if_false]
    exact hsave.markOther hs' (by decide) (by decide) ⟨c, hc⟩ rfl (by omega)

/-- A later arrival leaves the runner as it is. -/
theorem entered_runner_of_later (h0 : m.captured ≠ 0) : (m.entered p tid c).runner = m.runner :=
  if_neg h0

theorem state?_entered_of_later (h0 : m.captured ≠ 0) (hs : m.table.state? tid = some .uncaptured) :
    (m.entered p tid c).table.state? tid = some .idle := by
  have hs' : (m.table.save tid c).state? tid = some .uncaptured := by rw [Table.state?_save, hs]
  simp only [entered, joined, withSaved, h0, if_false]
  exact Table.state?_mark_self hs'

theorem state?_entered_of_ne {u : ThreadId} (hu : u ≠ tid) :
    (m.entered p tid c).table.state? u = m.table.state? u := by
  simp only [entered, joined, withSaved]
  rw [Table.state?_mark_of_ne hu, Table.state?_save]

/-- An arrival that joins is inside the program. -/
theorem inside_entered_self (hs : m.table.Outside tid) : (m.entered p tid c).table.Inside tid := by
  have hs' : (m.table.save tid c).state? tid = some .uncaptured := Table.state?_save.trans hs
  refine ⟨if m.captured = 0 then .running else .idle, Table.state?_mark_self hs', ?_⟩
  split <;> decide

theorem inside_entered {u : ThreadId} (hs : m.table.Outside tid) :
    (m.entered p tid c).table.Inside u ↔ m.table.Inside u ∨ u = tid := by
  rcases eq_or_ne u tid with rfl | hu
  · exact iff_of_true (inside_entered_self hs) (.inr rfl)
  · rw [Table.inside_congr (state?_entered_of_ne hu)]
    exact (or_iff_left hu).symm

theorem outside_entered {u : ThreadId} (hs : m.table.Outside tid) :
    (m.entered p tid c).table.Outside u ↔ m.table.Outside u ∧ u ≠ tid := by
  rcases eq_or_ne u tid with rfl | hu
  · exact iff_of_false (fun ho => ho.not_inside (inside_entered_self hs)) (fun h => h.2 rfl)
  · rw [Table.outside_congr (state?_entered_of_ne hu)]
    exact (and_iff_left hu).symm

@[simp] theorem capacity_entered (m : Ledger C σ) (p : Scheduler C σ) (tid : ThreadId) (c : C) :
    (m.entered p tid c).table.capacity = m.table.capacity := by
  simp only [entered, joined, withSaved, Table.capacity_mark, Table.capacity_save]

/-- It does not matter to an arrival when another thread's context is saved. -/
theorem withSaved_entered {u : ThreadId} (hu : u ≠ tid) (m : Ledger C σ) (p : Scheduler C σ) (c d : C) :
    (m.withSaved u d).entered p tid c = (m.entered p tid c).withSaved u d := by
  rw [entered, withSaved_comm hu]
  exact congrArg (fun table => { m.entered p tid c with table }) (Table.save_mark_comm hu)

/-- An arrival that runs is alone. -/
theorem captured_entered_of_runner (h : m.table.Balanced m.captured m.runner)
    (hs : m.table.state? tid = some .uncaptured) (hr : tid = (m.entered p tid c).runner) :
    (m.entered p tid c).captured = 1 := by
  by_cases h0 : m.captured = 0
  · exact congrArg (· + 1) h0
  · rw [entered_runner_of_later h0] at hr
    exact absurd hr (h.ne_runner_of_outside hs)

end Ledger

namespace Arbiter

open Critical

variable {C σ : Type} [Context C] {arb : Arbiter C σ} {m : Ledger C σ} {tid : ThreadId} {c : C}

/-! ## The parts of an arrival -/

omit [Context C] in
theorem join_apply (h : m.table.Balanced m.captured m.runner) (c : C)
    (hs : m.table.state? tid = some .uncaptured) :
    arb.join tid (m.withSaved tid c) = .ok () (m.entered arb.scheduler tid c) := by
  have hs' : (m.table.save tid c).state? tid = some .uncaptured := by rw [Table.state?_save, hs]
  have hi : ((m.table.save tid c).mark tid .idle).state? tid = some .idle :=
    Table.state?_mark_self hs'
  by_cases h0 : m.captured = 0
  · have hr := h.runner_eq_nobody h0
    simp only [join, Ledger.withSaved, Ledger.entered, Ledger.joined, bind_apply, get_apply, tell_apply,
      setCaptured_apply, Critical.setState, updateTable_apply, Table.setState_of_some hs', tally_apply,
      h0, beq_self_eq_true, if_true, expect_of hr, Table.setState_of_some hi, Table.mark_mark,
      setRunner_apply]
  · simp only [join, Ledger.withSaved, Ledger.entered, Ledger.joined, bind_apply, get_apply, tell_apply,
      setCaptured_apply, Critical.setState, updateTable_apply, Table.setState_of_some hs', tally_apply,
      beq_eq_false_iff_ne.mpr h0, h0, if_false, Bool.false_eq_true, pure_apply]

theorem takeRole_of_saved (arb : Arbiter C σ) (tid : ThreadId) {d : C} (hr : m.runner ≠ .nobody)
    (hd : m.table.saved? m.runner = some d) :
    ∃ log, arb.takeRole tid m = .ok ⟨m.runner, .executor, arb.stampExecutor m.runner d⟩
      ((m.ledBy tid log).withSaved m.runner (arb.stampExecutor m.runner d)) := by
  obtain ⟨log, hlog⟩ := arb.noteHandOff_apply
    s!"[{tid}] capture: took executor role, running {m.runner}" { m with executor := tid }
  have hd' : ({ m with executor := tid, log } : Ledger C σ).table.saved? m.runner = some d := hd
  refine ⟨log, ?_⟩
  simp only [takeRole, bind_apply, setExecutor_apply, get_apply, hlog]
  exact resumeRunner_of_saved hr hd'

theorem takeRole_without_runner (arb : Arbiter C σ) (tid : ThreadId) (hr : m.runner = .nobody) :
    ∃ log, arb.takeRole tid m =
      .error (.broken .resumeHasRunner) (m.ledBy tid log) := by
  obtain ⟨log, hlog⟩ := arb.noteHandOff_apply
    s!"[{tid}] capture: took executor role, running {m.runner}" { m with executor := tid }
  refine ⟨log, ?_⟩
  simp only [takeRole, bind_apply, setExecutor_apply, get_apply, hlog]
  exact resumeRunner_without_runner hr

theorem keepRole_of_alone (arb : Arbiter C σ) {d : C} (he : m.executor = tid) (hr : m.runner = tid)
    (hn : m.captured = 1) (htid : tid ≠ .nobody) (hd : m.table.saved? tid = some d) :
    ∃ log, arb.keepRole tid m = .ok ⟨tid, .executor, arb.stampExecutor tid d⟩
      ((m.cleared log).withSaved tid (arb.stampExecutor tid d)) := by
  subst hr
  refine ⟨m.log.push (.message .trace
    s!"[{m.runner}] capture: sole thread keeps the executor role"), ?_⟩
  rw [keepRole, bind_of_ok (get_apply m), bind_of_ok (expect_of he _), bind_of_ok (get_apply m),
    bind_of_ok (expect_of rfl _), bind_of_ok (get_apply m), bind_of_ok (expect_of hn _),
    bind_of_ok (setOwed_apply false m), bind_of_ok (note_apply _ _ _)]
  exact resumeRunner_of_saved htid hd

theorem keepRole_of_not_alone (arb : Arbiter C σ) (hr : m.runner = tid)
    (h : m.executor ≠ tid ∨ m.captured ≠ 1) :
    ∃ check, arb.keepRole tid m = .error (.broken check) m := by
  by_cases he : m.executor = tid
  · have hn : m.captured ≠ 1 := h.resolve_left (not_not_intro he)
    exact ⟨_, by
      simp only [keepRole, bind_apply, get_apply, expect_of he, expect_of hr, expect_of_not hn]; rfl⟩
  · exact ⟨_, by simp only [keepRole, bind_apply, get_apply, expect_of_not he]; rfl⟩

omit [Context C] in
theorem payUncapture_of_foreign (arb : Arbiter C σ) (tid : ThreadId)
    (h : m.runner ≠ m.executor ∨ m.captured ≠ 2) :
    ∃ check, arb.payUncapture tid m = .error (.broken check) m := by
  by_cases he : m.runner = m.executor
  · have hn : m.captured ≠ 2 := h.resolve_left (not_not_intro he)
    exact ⟨_, by simp only [payUncapture, bind_apply, get_apply, expect_of he, expect_of_not hn]; rfl⟩
  · exact ⟨_, by simp only [payUncapture, bind_apply, get_apply, expect_of_not he]; rfl⟩

omit [Context C] in
theorem payUncapture_of_error {e : Fault} {m' : Ledger C σ} (he : m.runner = m.executor)
    (hn : m.captured = 2) (h : arb.replaceRunner m = .error e m') :
    arb.payUncapture tid m = .error e m' := by
  simp only [payUncapture, bind_apply, get_apply, expect_of he, expect_of hn, h]

omit [Context C] in
theorem payUncapture_of_ok (tid : ThreadId) {m' : Ledger C σ} (he : m.runner = m.executor)
    (hn : m.captured = 2) (h : arb.replaceRunner m = .ok () m') :
    ∃ log, arb.payUncapture tid m = .ok () (m'.debtPaid log) := by
  obtain ⟨log, hlog⟩ := arb.noteHandOff_apply s!"[{tid}] capture: settled delayed uncapture"
    (m'.debtPaid m'.log)
  refine ⟨log, ?_⟩
  simp only [payUncapture, bind_apply, get_apply, expect_of he, expect_of hn, h, setExecutor_apply,
    setOwed_apply, tally_apply]
  exact hlog

/-! ## The first section -/

/-- **How an arrival can go on once it has joined**, on the ledger `m` that joining left. -/
inductive Settles (arb : Arbiter C σ) (tid : ThreadId) (m : Ledger C σ) :
    EStateM.Result Fault (Ledger C σ) (Arrival C) → Prop
  /-- An uncapture is owed, but not as an executor alone in its system call would leave it. -/
  | astray {check : Check} (ho : m.owesUncapture = true)
      (h : m.runner ≠ m.executor ∨ m.captured ≠ 2) : Settles arb tid m (.error (.broken check) m)
  /-- An uncapture is owed, and there is nobody to uncapture. -/
  | unowned (ho : m.owesUncapture = true) (he : m.runner = m.executor) (hn : m.captured = 2)
      (hr : m.runner = .nobody) :
      Settles arb tid m (.error (.capacityExceeded .nobody m.table.capacity) m)
  /-- An uncapture is owed, and the scheduler's choice is refused. -/
  | refused {v : Violation} {d d' : C} {next : ThreadId} {s : σ} (ho : m.owesUncapture = true)
      (he : m.runner = m.executor) (hn : m.captured = 2) (hr : m.runner ≠ .nobody)
      (hd : m.table.saved? m.runner = some d)
      (ha : arb.scheduler.choose m.runner d m.schedulerState = (next, d', s))
      (hnext : m.table.state? next ≠ some .idle) :
      Settles arb tid m
        (.error (.violation v) { m.withSaved m.runner d' with schedulerState := s })
  /-- An uncapture is owed and paid, and the thread takes the executor role. -/
  | paid {d d' x : C} {next : ThreadId} {s : σ} {l : Array Log.Entry}
      (ho : m.owesUncapture = true) (he : m.runner = m.executor) (hn : m.captured = 2)
      (hr : m.runner ≠ .nobody) (hd : m.table.saved? m.runner = some d)
      (ha : arb.scheduler.choose m.runner d m.schedulerState = (next, d', s))
      (hnext : m.table.state? next = some .idle) (hx : m.table.saved? next = some x) :
      Settles arb tid m (.ok (.resumed ⟨next, .executor, arb.stampExecutor next x⟩)
        ((((m.replaced next d' s).debtPaid l).ledBy tid l).withSaved next (arb.stampExecutor next x)))
  /-- The role is vacant, but there is no runner whose code the thread could run. -/
  | leaderless {log : Array Log.Entry} (ho : m.owesUncapture = false) (he : m.executor = .nobody)
      (hr : m.runner = .nobody) :
      Settles arb tid m (.error (.broken .resumeHasRunner) (m.ledBy tid log))
  /-- The role is vacant, and the thread takes it. -/
  | took {x : C} {log : Array Log.Entry} (ho : m.owesUncapture = false) (he : m.executor = .nobody)
      (hr : m.runner ≠ .nobody) (hx : m.table.saved? m.runner = some x) :
      Settles arb tid m (.ok (.resumed ⟨m.runner, .executor, arb.stampExecutor m.runner x⟩)
        ((m.ledBy tid log).withSaved m.runner (arb.stampExecutor m.runner x)))
  /-- Somebody else has the role. -/
  | waits (ho : m.owesUncapture = false) (he : m.executor ≠ .nobody) :
      Settles arb tid m (.ok .waiting m)

/-- **How the first section of an arrival can end**, on ledger `m`. -/
inductive Arrives (arb : Arbiter C σ) (tid : ThreadId) (c : C) (m : Ledger C σ) :
    EStateM.Result Fault (Ledger C σ) (Arrival C) → Prop
  | unknown (hs : m.table.state? tid = none) :
      Arrives arb tid c m (.error (.capacityExceeded tid m.table.capacity) m)
  /-- The thread is inside the program already, and waits there. -/
  | inside {s : ThreadState} (hs : m.table.state? tid = some s) (h : s = .idle ∨ s = .blocked) :
      Arrives arb tid c m (.error (.broken .arrivesUncaptured) (m.withSaved tid c))
  /-- The thread runs, but not as the only captured thread and the executor. -/
  | astray {check : Check} (hs : m.table.state? tid = some .running)
      (h : m.executor ≠ tid ∨ m.captured ≠ 1) :
      Arrives arb tid c m (.error (.broken check) (m.withSaved tid c))
  /-- The only captured thread is back from its system call. -/
  | returned {log : Array Log.Entry} (hs : m.table.state? tid = some .running)
      (he : m.executor = tid) (hn : m.captured = 1) :
      Arrives arb tid c m (.ok (.resumed ⟨tid, .executor, arb.stampExecutor tid c⟩)
        ((m.cleared log).withSaved tid (arb.stampExecutor tid c)))
  /-- The thread joins. -/
  | joined {r : EStateM.Result Fault (Ledger C σ) (Arrival C)}
      (hs : m.table.state? tid = some .uncaptured)
      (h : Settles arb tid (m.entered arb.scheduler tid c) r) : Arrives arb tid c m r

/-- Whoever arrives from outside has joined. -/
theorem Arrives.of_outside {r : EStateM.Result Fault (Ledger C σ) (Arrival C)}
    (h : Arrives arb tid c m r) (hs : m.table.Outside tid) :
    Settles arb tid (m.entered arb.scheduler tid c) r := by
  cases h with
  | unknown hs' => nomatch hs.symm.trans hs'
  | inside hs' h =>
    cases hs.symm.trans hs'
    exact absurd h (by decide)
  | astray hs' => nomatch hs.symm.trans hs'
  | returned hs' => nomatch hs.symm.trans hs'
  | joined _ h => exact h

/-- The rest of an arrival, once it has joined, while an uncapture is owed. -/
theorem settles_owing (hb : m.table.Balanced m.captured m.runner) (ho : m.owesUncapture = true) :
    Settles arb tid m ((arb.payUncapture tid >>= fun _ => do
      if (← get).executor = .nobody then return .resumed (← arb.takeRole tid)
      else return .waiting) m) := by
  by_cases hforeign : m.runner ≠ m.executor ∨ m.captured ≠ 2
  · obtain ⟨check, hpay⟩ := arb.payUncapture_of_foreign tid hforeign
    rw [bind_of_error hpay]
    exact .astray ho hforeign
  obtain ⟨he, hn⟩ := not_or.mp hforeign
  rw [Classical.not_not] at he hn
  by_cases hr : m.runner = .nobody
  · rw [bind_of_error
      (payUncapture_of_error he hn (replaceRunner_without_runner hb.nobody_unknown hr))]
    exact .unowned ho he hn hr
  obtain ⟨d, hd⟩ := hb.runner_saved hr
  obtain ⟨next, d', s, ha⟩ : ∃ next d' s,
      arb.scheduler.choose m.runner d m.schedulerState = (next, d', s) := ⟨_, _, _, rfl⟩
  by_cases hnext : m.table.state? next = some .idle
  · have hne := hb.ne_runner_of_idle hnext
    obtain ⟨x, hx⟩ := hb.saved next .idle hnext (by decide)
    obtain ⟨log, hpay⟩ := payUncapture_of_ok tid he hn
      (replaceRunner_chosen hb hr hd ha hnext)
    have hx' : ((m.replaced next d' s).debtPaid log).table.saved? next = some x := by
      rw [Ledger.debtPaid, Ledger.replaced, Table.saved?_mark, Table.saved?_mark,
        Table.saved?_save_of_ne hne, hx]
    obtain ⟨log', htake⟩ := arb.takeRole_of_saved tid
      (m := (m.replaced next d' s).debtPaid log) (hb.ne_nobody hnext) hx'
    have hvacant : ((m.replaced next d' s).debtPaid log).executor = .nobody := rfl
    rw [bind_of_ok hpay, bind_of_ok (get_apply _), if_pos hvacant, bind_of_ok htake]
    exact .paid (l := log') ho he hn hr hd ha hnext hx
  · obtain ⟨v, hrep⟩ := replaceRunner_refused hd ha hnext
    rw [bind_of_error (payUncapture_of_error he hn hrep)]
    exact .refused ho he hn hr hd ha hnext

/-- The rest of an arrival, once it has joined, while no uncapture is owed. -/
theorem settles_free (hb : m.table.Balanced m.captured m.runner) (ho : m.owesUncapture = false) :
    Settles arb tid m ((if m.executor = .nobody then do return .resumed (← arb.takeRole tid)
      else return .waiting : Critical C σ (Arrival C)) m) := by
  by_cases he : m.executor = .nobody
  · rw [if_pos he]
    by_cases hr : m.runner = .nobody
    · obtain ⟨log, htake⟩ := arb.takeRole_without_runner tid hr
      rw [bind_of_error htake]
      exact .leaderless ho he hr
    · obtain ⟨x, hx⟩ := hb.runner_saved hr
      obtain ⟨log, htake⟩ := arb.takeRole_of_saved tid hr hx
      rw [bind_of_ok htake]
      exact .took ho he hr hx
  · rw [if_neg he]
    exact .waits ho he

/-- **The first section of an arrival ends in one of the listed ways.** -/
theorem arrive_outcome (hb : m.table.Balanced m.captured m.runner) :
    Arrives arb tid c m (arb.arrive tid c m) := by
  cases hs : m.table.state? tid with
  | none =>
    rw [arrive, bind_of_error (storeContext_of_none hs)]
    exact .unknown hs
  | some s =>
    have hs' : (m.withSaved tid c).table.state? tid = some s := by
      rw [Ledger.withSaved, Table.state?_save, hs]
    rw [arrive, bind_of_ok (storeContext_of_some hs), bind_of_ok (stateOf_of_some hs')]
    cases s with
    | idle => exact .inside hs (.inl rfl)
    | blocked => exact .inside hs (.inr rfl)
    | running =>
      have hrun : tid = m.runner := hb.runner_eq_of_running hs
      have hc : (m.withSaved tid c).table.saved? tid = some c := Table.saved?_save_self hs
      by_cases h : m.executor ≠ tid ∨ m.captured ≠ 1
      · obtain ⟨check, hkeep⟩ := arb.keepRole_of_not_alone (m := m.withSaved tid c) hrun.symm h
        simp only [bind_of_error hkeep]
        exact .astray hs h
      · obtain ⟨he, hn⟩ := not_or.mp h
        rw [Classical.not_not] at he hn
        obtain ⟨log, hkeep⟩ := arb.keepRole_of_alone (m := m.withSaved tid c) he hrun.symm hn
          (hb.ne_nobody hs) hc
        rw [show (m.withSaved tid c).cleared log = (m.cleared log).withSaved tid c from rfl,
          Ledger.withSaved_withSaved] at hkeep
        simp only [bind_of_ok hkeep]
        exact .returned hs he hn
    | uncaptured =>
      have hb' := Ledger.entered_balanced hb arb.scheduler c hs
      simp only [bind_of_ok (join_apply hb c hs), bind_of_ok (get_apply _)]
      refine .joined hs ?_
      cases ho : (m.entered arb.scheduler tid c).owesUncapture with
      | true =>
        rw [if_pos rfl]
        exact settles_owing hb' ho
      | false =>
        rw [if_neg Bool.false_ne_true, bind_of_ok (get_apply _)]
        exact settles_free hb' ho

/-! ## A later section -/

/-- **How a later section of an arrival can end**, on ledger `m`. -/
inductive Looks (arb : Arbiter C σ) (tid : ThreadId) (m : Ledger C σ) :
    EStateM.Result Fault (Ledger C σ) (Arrival C) → Prop
  | unknown (hs : m.table.state? tid = none) :
      Looks arb tid m (.error (.capacityExceeded tid m.table.capacity) m)
  /-- The thread has been uncaptured, but has no context to go on with. -/
  | unsaved {log : Array Log.Entry} (hs : m.table.state? tid = some .uncaptured)
      (hc : m.table.saved? tid = none) :
      Looks arb tid m (.error (.broken .contextSaved) (m.logged log))
  /-- The thread has been uncaptured, and makes its system call itself. -/
  | released {c : C} {log : Array Log.Entry} (hs : m.table.state? tid = some .uncaptured)
      (hc : m.table.saved? tid = some c) :
      Looks arb tid m (.ok (.resumed ⟨tid, .uncaptured, arb.stampPlain c⟩)
        ((m.logged log).withSaved tid (arb.stampPlain c)))
  /-- The role is vacant, but there is no runner whose code the thread could run. -/
  | leaderless {s : ThreadState} {log : Array Log.Entry} (hs : m.table.state? tid = some s)
      (hne : s ≠ .uncaptured) (he : m.executor = .nobody) (hr : m.runner = .nobody) :
      Looks arb tid m (.error (.broken .resumeHasRunner) (m.ledBy tid log))
  /-- The role is vacant, and the thread takes it. -/
  | took {s : ThreadState} {x : C} {log : Array Log.Entry} (hs : m.table.state? tid = some s)
      (hne : s ≠ .uncaptured) (he : m.executor = .nobody) (hr : m.runner ≠ .nobody)
      (hx : m.table.saved? m.runner = some x) :
      Looks arb tid m (.ok (.resumed ⟨m.runner, .executor, arb.stampExecutor m.runner x⟩)
        ((m.ledBy tid log).withSaved m.runner (arb.stampExecutor m.runner x)))
  /-- The thread was woken for nothing. -/
  | waits {s : ThreadState} (hs : m.table.state? tid = some s) (hne : s ≠ .uncaptured)
      (he : m.executor ≠ .nobody) :
      Looks arb tid m (.ok .waiting
        { m with stats := { m.stats with spurious := m.stats.spurious + 1 } })

/-- **A later section of an arrival ends in one of the listed ways.** -/
theorem lookAgain_outcome (hb : m.table.Balanced m.captured m.runner) :
    Looks arb tid m (arb.lookAgain tid m) := by
  cases hs : m.table.state? tid with
  | none =>
    rw [lookAgain, bind_of_error (stateOf_of_none hs)]
    exact .unknown hs
  | some s =>
    rw [lookAgain, bind_of_ok (stateOf_of_some hs)]
    rcases eq_or_ne s .uncaptured with rfl | hu
    · obtain ⟨log, hnote⟩ : ∃ log, (note .trace s!"[{tid}] capture: woken uncaptured" :
          Critical C σ Unit) m = .ok () { m with log } := ⟨_, rfl⟩
      rw [if_pos rfl, bind_of_ok hnote]
      cases hc : m.table.saved? tid with
      | none =>
        rw [bind_of_error (resumeOwn_of_unsaved (m := { m with log }) hs hc)]
        exact .unsaved hs hc
      | some c =>
        rw [bind_of_ok (resumeOwn_of_saved (m := { m with log }) hc)]
        exact .released hs hc
    · rw [if_neg hu, bind_of_ok (get_apply m)]
      by_cases he : m.executor = .nobody
      · rw [if_pos he]
        by_cases hr : m.runner = .nobody
        · obtain ⟨log, htake⟩ := arb.takeRole_without_runner tid hr
          rw [bind_of_error htake]
          exact .leaderless hs hu he hr
        · obtain ⟨x, hx⟩ := hb.runner_saved hr
          obtain ⟨log, htake⟩ := arb.takeRole_of_saved tid hr hx
          rw [bind_of_ok htake]
          exact .took hs hu he hr hx
      · rw [if_neg he]
        exact .waits hs hu he

end Arbiter

end SoleRunner
