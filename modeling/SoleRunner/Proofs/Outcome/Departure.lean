import SoleRunner.Arbiter.Departure
import SoleRunner.Proofs.Steps

/-!
# Proofs/Outcome/Departure — every way in which a departure can end

`Departs` lists the ends of a departure, each with the answer and the ledger that it leaves, and
`depart_outcome` says that on a balanced ledger there are no others.
-/

namespace SoleRunner

namespace Ledger

variable {C σ : Type}

/-- The ledger once `owner` has been woken to make its system call. -/
@[simps table permits runner executor owesUncapture]
def shipped (m : Ledger C σ) (owner : ThreadId) (log : Array Log.Entry) : Ledger C σ :=
  { m with
    permits := m.permits.setIfInBounds owner.index true
    stats := { m.stats with shipped := m.stats.shipped + 1 }
    log }

/-- The ledger once the executor has given up its role and the runner has been woken to take it. -/
@[simps table permits runner executor owesUncapture]
def handedOver (m : Ledger C σ) (log : Array Log.Entry) : Ledger C σ :=
  { m with
    executor := .nobody
    permits := m.permits.setIfInBounds m.runner.index true
    log }

/-- The ledger once the only captured thread has gone into its system call with the executor role. -/
@[simps table permits runner executor owesUncapture]
def owing (m : Ledger C σ) (log : Array Log.Entry) : Ledger C σ :=
  { m with owesUncapture := true, log }

end Ledger

namespace Arbiter

open Critical

variable {C σ : Type} [Context C] {arb : Arbiter C σ} {m : Ledger C σ} {tid : ThreadId} {c : C}

/-! ## The parts of a departure -/

theorem ship_of_lone (arb : Arbiter C σ) (tid owner : ThreadId) (hn : m.captured < 2) :
    arb.ship tid owner m = .error (.broken .shippedWithOthers) m := by
  rw [ship, bind_of_ok (get_apply m), bind_of_error (expect_of_not (Nat.not_le.mpr hn) _)]

theorem ship_of_error {e : Fault} {m' : Ledger C σ} (tid owner : ThreadId) (hn : 2 ≤ m.captured)
    (h : arb.replaceRunner m = .error e m') : arb.ship tid owner m = .error e m' := by
  rw [ship, bind_of_ok (get_apply m), bind_of_ok (expect_of hn _), bind_of_error h]

theorem ship_of_ok {n : Ledger C σ} {x : C} (tid owner : ThreadId) (hn : 2 ≤ m.captured)
    (h : arb.replaceRunner m = .ok () n) (hr : n.runner ≠ .nobody)
    (hx : n.table.saved? n.runner = some x) :
    ∃ log, arb.ship tid owner m = .ok ⟨n.runner, .executor, arb.stampExecutor n.runner x⟩
      ((n.shipped owner log).withSaved n.runner (arb.stampExecutor n.runner x)) := by
  obtain ⟨log, hwake⟩ := arb.wake_apply owner n
  refine ⟨log.push (.message .trace
    s!"[{tid}] syscall: shipped to {owner}, now running {n.runner}"), ?_⟩
  rw [ship, bind_of_ok (get_apply m), bind_of_ok (expect_of hn _), bind_of_ok h, bind_of_ok hwake,
    bind_of_ok (tally_apply _ _), bind_of_ok (get_apply _), bind_of_ok (note_apply _ _ _)]
  exact resumeRunner_of_saved (m := n.shipped owner _) hr hx

omit [Context C] in
theorem handOver_of_error {e : Fault} {m' : Ledger C σ} (tid : ThreadId)
    (h : arb.replaceRunner m = .error e m') : arb.handOver tid m = .error e m' := by
  rw [handOver, bind_of_error h]

omit [Context C] in
theorem handOver_of_ok {n : Ledger C σ} (tid : ThreadId) (h : arb.replaceRunner m = .ok () n) :
    ∃ log, arb.handOver tid m = .ok () (n.handedOver log) := by
  obtain ⟨log₁, hwake⟩ := arb.wake_apply n.runner { n with executor := .nobody }
  obtain ⟨log, hnote⟩ := arb.noteHandOff_apply
    s!"[{tid}] syscall: handed the executor role to {n.runner}" (n.handedOver log₁)
  refine ⟨log, ?_⟩
  rw [handOver, bind_of_ok h, bind_of_ok (setExecutor_apply _ _), bind_of_ok (get_apply _),
    bind_of_ok hwake]
  exact hnote

omit [Context C] in
theorem owe_of_free (tid : ThreadId) (ho : m.owesUncapture = false) :
    ∃ log, owe tid m = .ok () (m.owing log) := by
  refine ⟨m.log.push (.message .trace
    s!"[{tid}] syscall: sole thread keeps the executor role"), ?_⟩
  rw [owe, bind_of_ok (get_apply m), bind_of_ok (expect_of ho _), bind_of_ok (setOwed_apply true m)]
  rfl

omit [Context C] in
theorem owe_of_owing (tid : ThreadId) (ho : m.owesUncapture = true) :
    owe tid m = .error (.broken .owesOnce) m := by
  rw [owe, bind_of_ok (get_apply m), bind_of_error (expect_of_not (by rw [ho]; decide) _)]

/-! ## The whole section -/

/-- **How a departure can end**, on ledger `m`. -/
inductive Departs (arb : Arbiter C σ) (tid : ThreadId) (c : C) (m : Ledger C σ) :
    EStateM.Result Fault (Ledger C σ) (Resume C) → Prop
  | foreign (he : m.executor ≠ tid) : Departs arb tid c m (.error (.broken .departsAsExecutor) m)
  /-- There is no runner whose call this could be. -/
  | leaderless (he : m.executor = tid) (hr : m.runner = .nobody) :
      Departs arb tid c m (.error (.capacityExceeded .nobody m.table.capacity) m)
  /-- The call is another thread's, and nobody else is captured. -/
  | lone (he : m.executor = tid) (hr : m.runner ≠ .nobody) (hne : m.runner ≠ tid)
      (hn : m.captured < 2) :
      Departs arb tid c m (.error (.broken .shippedWithOthers) (m.withSaved m.runner c))
  /-- The scheduler's choice is refused. -/
  | refused {v : Violation} {d : C} {next : ThreadId} {s : σ} (he : m.executor = tid)
      (hr : m.runner ≠ .nobody) (hn : 2 ≤ m.captured)
      (ha : arb.scheduler.choose m.runner c m.schedulerState = (next, d, s))
      (hnext : m.table.state? next ≠ some .idle) :
      Departs arb tid c m
        (.error (.violation v) { m.withSaved m.runner d with schedulerState := s })
  /-- The call is another thread's: that one is woken to make it. -/
  | shipped {d x : C} {next : ThreadId} {s : σ} {log : Array Log.Entry} (he : m.executor = tid)
      (hr : m.runner ≠ .nobody) (hne : m.runner ≠ tid) (hn : 2 ≤ m.captured)
      (ha : arb.scheduler.choose m.runner c m.schedulerState = (next, d, s))
      (hnext : m.table.state? next = some .idle) (hx : m.table.saved? next = some x) :
      Departs arb tid c m (.ok ⟨next, .executor, arb.stampExecutor next x⟩
        (((m.replaced next d s).shipped m.runner log).withSaved next (arb.stampExecutor next x)))
  /-- The call is the executor's own: the next runner is woken to take the role. -/
  | handedOver {d : C} {next : ThreadId} {s : σ} {log : Array Log.Entry} (he : m.executor = tid)
      (hr : m.runner = tid) (htid : tid ≠ .nobody) (hn : 2 ≤ m.captured)
      (ha : arb.scheduler.choose tid c m.schedulerState = (next, d, s))
      (hnext : m.table.state? next = some .idle) :
      Departs arb tid c m (.ok ⟨tid, .uncaptured, arb.stampPlain d⟩
        (((m.replaced next d s).handedOver log).withSaved tid (arb.stampPlain d)))
  /-- The call is the executor's own, it is alone, and an uncapture is owed already. -/
  | owesAlready (he : m.executor = tid) (hr : m.runner = tid) (htid : tid ≠ .nobody)
      (hn : m.captured < 2) (ho : m.owesUncapture = true) :
      Departs arb tid c m (.error (.broken .owesOnce) (m.withSaved tid c))
  /-- The call is the executor's own and it is alone: it keeps the role. -/
  | owed {log : Array Log.Entry} (he : m.executor = tid) (hr : m.runner = tid)
      (htid : tid ≠ .nobody) (hn : m.captured < 2) (ho : m.owesUncapture = false) :
      Departs arb tid c m (.ok ⟨tid, .uncaptured, arb.stampPlain c⟩
        ((m.owing log).withSaved tid (arb.stampPlain c)))

/-- Whoever is not the executor does not depart. -/
theorem depart_of_foreign (he : m.executor ≠ tid) :
    arb.depart tid c m = .error (.broken .departsAsExecutor) m := by
  rw [depart, bind_of_ok (get_apply m), bind_of_error (expect_of_not he _)]

/-- An executor departs from another thread's code. -/
theorem depart_of_other (hb : m.table.Balanced m.captured m.runner) (he : m.executor = tid)
    (hr : m.runner ≠ .nobody) (hne : m.runner ≠ tid) :
    arb.depart tid c m = arb.ship tid m.runner (m.withSaved m.runner c) := by
  rw [depart, bind_of_ok (get_apply m), bind_of_ok (expect_of he _), bind_of_ok (get_apply m)]
  simp only [bind_of_ok (storeContext_of_some (hb.runner_running hr))]
  rw [if_pos hne]

/-- An executor departs from its own code. -/
theorem depart_of_own (hb : m.table.Balanced m.captured m.runner) (he : m.executor = m.runner)
    (hr : m.runner ≠ .nobody) :
    arb.depart m.runner c m = (if 2 ≤ m.captured then do
        arb.handOver m.runner
        arb.resumeOwn m.runner
      else do
        owe m.runner
        arb.resumeOwn m.runner : Critical C σ (Resume C)) (m.withSaved m.runner c) := by
  rw [depart, bind_of_ok (get_apply m), bind_of_ok (expect_of he _), bind_of_ok (get_apply m)]
  simp only [bind_of_ok (storeContext_of_some (hb.runner_running hr))]
  rw [if_neg (not_not_intro rfl), bind_of_ok (get_apply _)]
  rfl

/-- The call is shipped, and the executor goes on with the scheduler's choice. -/
theorem ship_chosen (hb : m.table.Balanced m.captured m.runner) (hr : m.runner ≠ .nobody)
    (hn : 2 ≤ m.captured) {d x : C} {next : ThreadId} {s : σ}
    (ha : arb.scheduler.choose m.runner c m.schedulerState = (next, d, s))
    (hnext : m.table.state? next = some .idle) (hx : m.table.saved? next = some x) (tid : ThreadId) :
    ∃ log, arb.ship tid m.runner (m.withSaved m.runner c) =
      .ok ⟨next, .executor, arb.stampExecutor next x⟩
        (((m.replaced next d s).shipped m.runner log).withSaved next (arb.stampExecutor next x)) := by
  have hx' : (m.replaced next d s).table.saved? next = some x := by
    rw [Ledger.replaced, Table.saved?_mark, Table.saved?_mark,
      Table.saved?_save_of_ne (hb.ne_runner_of_idle hnext), hx]
  exact ship_of_ok (m := m.withSaved m.runner c) tid m.runner hn (replaceRunner_withSaved hb hr ha hnext)
    (hb.ne_nobody hnext) hx'

/-- The role is handed over to the scheduler's choice, and the runner makes its call. -/
theorem handOver_chosen (hb : m.table.Balanced m.captured m.runner) (hr : m.runner ≠ .nobody)
    {d : C} {next : ThreadId} {s : σ}
    (ha : arb.scheduler.choose m.runner c m.schedulerState = (next, d, s))
    (hnext : m.table.state? next = some .idle) :
    ∃ log, (do
        arb.handOver m.runner
        arb.resumeOwn m.runner : Critical C σ (Resume C)) (m.withSaved m.runner c) =
      .ok ⟨m.runner, .uncaptured, arb.stampPlain d⟩
        (((m.replaced next d s).handedOver log).withSaved m.runner (arb.stampPlain d)) := by
  obtain ⟨log, hover⟩ := handOver_of_ok m.runner (replaceRunner_withSaved hb hr ha hnext)
  have hd : ((m.replaced next d s).handedOver log).table.saved? m.runner = some d := by
    rw [Ledger.handedOver, Ledger.replaced, Table.saved?_mark, Table.saved?_mark,
      Table.saved?_save_self (hb.runner_running hr)]
  exact ⟨log, by rw [bind_of_ok hover, resumeOwn_of_saved hd]⟩

/-- The departure of an executor from another thread's code. -/
theorem departs_shipping (hb : m.table.Balanced m.captured m.runner) (he : m.executor = tid)
    (hr : m.runner ≠ .nobody) (hne : m.runner ≠ tid) :
    Departs arb tid c m (arb.ship tid m.runner (m.withSaved m.runner c)) := by
  by_cases hn : 2 ≤ m.captured
  · obtain ⟨next, d, s, ha⟩ : ∃ next d s,
        arb.scheduler.choose m.runner c m.schedulerState = (next, d, s) := ⟨_, _, _, rfl⟩
    by_cases hnext : m.table.state? next = some .idle
    · obtain ⟨x, hx⟩ := hb.saved next .idle hnext (by decide)
      obtain ⟨log, hship⟩ := ship_chosen hb hr hn ha hnext hx tid
      rw [hship]
      exact .shipped he hr hne hn ha hnext hx
    · obtain ⟨v, hrep⟩ := replaceRunner_withSaved_refused hb hr ha hnext
      rw [ship_of_error (m := m.withSaved m.runner c) tid m.runner hn hrep]
      exact .refused he hr hn ha hnext
  · rw [ship_of_lone (m := m.withSaved m.runner c) arb tid m.runner (Nat.not_le.mp hn)]
    exact .lone he hr hne (Nat.not_le.mp hn)

/-- The departure of an executor from its own code. -/
theorem departs_own (hb : m.table.Balanced m.captured m.runner) (he : m.executor = m.runner)
    (hr : m.runner ≠ .nobody) :
    Departs arb m.runner c m ((if 2 ≤ m.captured then do
        arb.handOver m.runner
        arb.resumeOwn m.runner
      else do
        owe m.runner
        arb.resumeOwn m.runner : Critical C σ (Resume C)) (m.withSaved m.runner c)) := by
  have hrun := hb.runner_running hr
  by_cases hn : 2 ≤ m.captured
  · rw [if_pos hn]
    obtain ⟨next, d, s, ha⟩ : ∃ next d s,
        arb.scheduler.choose m.runner c m.schedulerState = (next, d, s) := ⟨_, _, _, rfl⟩
    by_cases hnext : m.table.state? next = some .idle
    · obtain ⟨log, hover⟩ := handOver_chosen hb hr ha hnext
      rw [hover]
      exact .handedOver he rfl hr hn ha hnext
    · obtain ⟨v, hrep⟩ := replaceRunner_withSaved_refused hb hr ha hnext
      rw [bind_of_error (handOver_of_error m.runner hrep)]
      exact .refused he hr hn ha hnext
  · rw [if_neg hn]
    cases ho : m.owesUncapture with
    | true =>
      rw [bind_of_error (owe_of_owing (m := m.withSaved m.runner c) m.runner ho)]
      exact .owesAlready he rfl hr (Nat.not_le.mp hn) ho
    | false =>
      obtain ⟨log, howe⟩ := owe_of_free (m := m.withSaved m.runner c) m.runner ho
      have hc : ((m.withSaved m.runner c).owing log).table.saved? m.runner = some c :=
        Table.saved?_save_self hrun
      rw [bind_of_ok howe, resumeOwn_of_saved hc,
        show (m.withSaved m.runner c).owing log = (m.owing log).withSaved m.runner c from rfl,
        Ledger.withSaved_withSaved]
      exact .owed he rfl hr (Nat.not_le.mp hn) ho

/-- **A departure ends in one of the listed ways.** -/
theorem depart_outcome (hb : m.table.Balanced m.captured m.runner) :
    Departs arb tid c m (arb.depart tid c m) := by
  by_cases he : m.executor = tid
  · by_cases hr : m.runner = .nobody
    · have hn : m.table.state? m.runner = none := by rw [hr, hb.nobody_unknown]
      rw [depart, bind_of_ok (get_apply m), bind_of_ok (expect_of he _), bind_of_ok (get_apply m)]
      simp only [bind_of_error (storeContext_of_none hn)]
      rw [hr]
      exact .leaderless he hr
    · by_cases hne : m.runner = tid
      · subst hne
        rw [depart_of_own hb he hr]
        exact departs_own hb he hr
      · rw [depart_of_other hb he hr hne]
        exact departs_shipping hb he hr hne
  · rw [depart_of_foreign he]
    exact .foreign he

/-- **When a departure goes through**: the executor has somebody's code, and either the scheduler's choice
may run instead, or the code is its own and nobody else is captured. -/
theorem depart_ok_iff (hb : m.table.Balanced m.captured m.runner) :
    (∃ r m', arb.depart tid c m = .ok r m') ↔ m.executor = tid ∧ m.runner ≠ .nobody ∧
      (2 ≤ m.captured ∧
          m.table.state? (arb.scheduler.choose m.runner c m.schedulerState).1 = some .idle ∨
        m.captured < 2 ∧ m.runner = tid ∧ m.owesUncapture = false) := by
  have ho : Departs arb tid c m (arb.depart tid c m) := depart_outcome hb
  generalize arb.depart tid c m = r at ho
  cases ho with
  | foreign he => exact iff_of_false (error_ne_ok _ _) fun h => he h.1
  | leaderless _ hr => exact iff_of_false (error_ne_ok _ _) fun h => h.2.1 hr
  | lone _ _ hne hn =>
    refine iff_of_false (error_ne_ok _ _) fun h => ?_
    exact h.2.2.elim (fun h => Nat.not_le.mpr hn h.1) fun h => hne h.2.1
  | refused _ _ hn ha hnext =>
    rw [ha]
    refine iff_of_false (error_ne_ok _ _) fun h => ?_
    exact h.2.2.elim (fun h => hnext h.2) fun h => Nat.not_le.mpr h.1 hn
  | shipped he hr _ hn ha hnext =>
    rw [ha]
    exact iff_of_true ⟨_, _, rfl⟩ ⟨he, hr, .inl ⟨hn, hnext⟩⟩
  | handedOver he hr htid hn ha hnext =>
    rw [hr, ha]
    exact iff_of_true ⟨_, _, rfl⟩ ⟨he, htid, .inl ⟨hn, hnext⟩⟩
  | owesAlready _ _ _ hn ho =>
    refine iff_of_false (error_ne_ok _ _) fun h => ?_
    exact h.2.2.elim (fun h => Nat.not_le.mpr hn h.1) fun h => nomatch h.2.2.symm.trans ho
  | owed he hr htid hn ho =>
    exact iff_of_true ⟨_, _, rfl⟩ ⟨he, hr ▸ htid, .inr ⟨hn, hr, ho⟩⟩

end Arbiter

end SoleRunner
