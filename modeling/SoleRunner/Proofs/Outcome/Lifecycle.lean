import SoleRunner.Arbiter.Lifecycle
import SoleRunner.Proofs.Steps

/-!
# Proofs/Outcome/Lifecycle — every way in which a thread's start and exit can end

A start changes nothing that other threads depend on.  An exit does so only if the thread runs: then it
was alone, and leaves the arbiter without a runner and without an executor (`Ledger.vacated`).
-/

namespace SoleRunner

namespace Ledger

variable {C σ : Type}

/-- The ledger once the start of `tid` has been noted. -/
@[simps table permits runner executor owesUncapture]
def begun (m : Ledger C σ) (p : Scheduler C σ) (tid : ThreadId) (log : Array Log.Entry) :
    Ledger C σ :=
  { m with
    stats := { m.stats with starts := m.stats.starts + 1 }
    schedulerState := p.started tid m.schedulerState
    log }

/-- The ledger once the exit of `tid` has been noted. -/
@[simps table permits runner executor owesUncapture]
def ended (m : Ledger C σ) (p : Scheduler C σ) (tid : ThreadId) (log : Array Log.Entry) :
    Ledger C σ :=
  { m with
    stats := { m.stats with ends := m.stats.ends + 1 }
    schedulerState := p.ended tid m.schedulerState
    log }

/-- **The ledger once the only captured thread has exited**: nobody runs, and nobody is the executor. -/
@[simps permits runner executor owesUncapture]
def vacated (m : Ledger C σ) (tid : ThreadId) : Ledger C σ :=
  { m with
    table := m.table.mark tid .uncaptured
    runner := .nobody
    executor := .nobody
    captured := 0
    owesUncapture := false
    runnerHint := .nobody }

theorem inside_vacated {m : Ledger C σ} {tid u : ThreadId} {s : ThreadState}
    (hs : m.table.state? tid = some s) :
    (m.vacated tid).table.Inside u ↔ m.table.Inside u ∧ u ≠ tid := by
  rcases eq_or_ne u tid with rfl | hu
  · exact iff_of_false (Table.Outside.not_inside (Table.state?_mark_self hs)) (fun h => h.2 rfl)
  · exact (Table.inside_congr (Table.state?_mark_of_ne hu)).trans (and_iff_left hu).symm

end Ledger

namespace Arbiter

open Critical

variable {C σ : Type} {arb : Arbiter C σ} {m : Ledger C σ} {tid : ThreadId} {c : C}

/-! ## Starting -/

/-- **How a start can end**, on ledger `m`. -/
inductive Starts [Context C] (arb : Arbiter C σ) (tid : ThreadId) (c : C) (m : Ledger C σ) :
    EStateM.Result Fault (Ledger C σ) C → Prop
  | unknown (hs : m.table.state? tid = none) :
      Starts arb tid c m (.error (.capacityExceeded tid m.table.capacity) m)
  /-- A thread that is inside the program cannot start. -/
  | astray {s : ThreadState} {log : Array Log.Entry} (hs : m.table.state? tid = some s)
      (hne : s ≠ .uncaptured) :
      Starts arb tid c m (.error (.broken .startsUncaptured) (m.begun arb.scheduler tid log))
  | started {log : Array Log.Entry} (hs : m.table.state? tid = some .uncaptured) :
      Starts arb tid c m (.ok (Context.setReg c arb.roleReg 0) (m.begun arb.scheduler tid log))

/-- **A start ends in one of the listed ways.** -/
theorem startThread_outcome [Context C] (arb : Arbiter C σ) (tid : ThreadId) (c : C)
    (m : Ledger C σ) : Starts arb tid c m (arb.startThread tid c m) := by
  cases hs : m.table.state? tid with
  | none =>
    rw [startThread, bind_of_ok (get_apply m), Table.check_of_none hs, ofExcept_error,
      bind_of_error (throw_apply _ m)]
    exact .unknown hs
  | some s =>
    obtain ⟨log, hnote⟩ := arb.noteHandOff_apply s!"thread {tid} started" m
    have hstate : stateOf tid (m.begun arb.scheduler tid log) = .ok s _ := stateOf_of_some hs
    rw [startThread, bind_of_ok (get_apply m), Table.check_of_some hs, ofExcept_ok,
      bind_of_ok (pure_apply _ m), bind_of_ok hnote, bind_of_ok (tell_apply _ _)]
    change Starts arb tid c m ((stateOf tid >>= _) (m.begun arb.scheduler tid log))
    rw [bind_of_ok hstate]
    rcases eq_or_ne s .uncaptured with rfl | hu
    · rw [bind_of_ok (expect_of rfl _)]
      exact .started hs
    · rw [bind_of_error (expect_of_not hu _)]
      exact .astray hs hu

/-! ## Exiting -/

/-- **How an exit can end**, on ledger `m`. -/
inductive Finishes (arb : Arbiter C σ) (tid : ThreadId) (m : Ledger C σ) :
    EStateM.Result Fault (Ledger C σ) Unit → Prop
  | unknown {log : Array Log.Entry} (hs : m.table.state? tid = none) :
      Finishes arb tid m (.error (.capacityExceeded tid m.table.capacity) { m with log })
  /-- The thread is captured or blocked, or it runs but not alone and as executor. -/
  | refused {check : Check} {s : ThreadState} {log : Array Log.Entry}
      (hs : m.table.state? tid = some s) (hne : s ≠ .uncaptured)
      (h : s = .running → m.captured ≠ 1 ∨ m.executor ≠ tid) :
      Finishes arb tid m (.error (.broken check) { m with log })
  | outside {log : Array Log.Entry} (hs : m.table.state? tid = some .uncaptured) :
      Finishes arb tid m (.ok () (m.ended arb.scheduler tid log))
  /-- The only captured thread exits as the executor. -/
  | last {log : Array Log.Entry} (hs : m.table.state? tid = some .running) (hn : m.captured = 1)
      (he : m.executor = tid) :
      Finishes arb tid m (.ok () ((m.vacated tid).ended arb.scheduler tid log))

theorem exitRunning_of_last (hs : m.table.state? tid = some .running) (hn : m.captured = 1)
    (he : m.executor = tid) : exitRunning tid m = .ok () (m.vacated tid) := by
  rw [exitRunning, bind_of_ok (get_apply m), bind_of_ok (expect_of hn _), bind_of_ok (get_apply m),
    bind_of_ok (expect_of he _), bind_of_ok (setState_of_some hs), bind_of_ok (setCaptured_apply 0 _),
    bind_of_ok (setOwed_apply false _), bind_of_ok (setRunner_apply _ _)]
  rfl

theorem exitRunning_refused (h : m.captured ≠ 1 ∨ m.executor ≠ tid) :
    ∃ check, exitRunning tid m = .error (.broken check) m := by
  by_cases hn : m.captured = 1
  · have he : m.executor ≠ tid := h.resolve_left (not_not_intro hn)
    refine ⟨.exitsAsExecutor, ?_⟩
    rw [exitRunning, bind_of_ok (get_apply m), bind_of_ok (expect_of hn _),
      bind_of_ok (get_apply m), bind_of_error (expect_of_not he _)]
  · refine ⟨.exitsAlone, ?_⟩
    rw [exitRunning, bind_of_ok (get_apply m), bind_of_error (expect_of_not hn _)]

/-- **An exit ends in one of the listed ways.** -/
theorem endThread_outcome (arb : Arbiter C σ) (tid : ThreadId) (m : Ledger C σ) :
    Finishes arb tid m (arb.endThread tid m) := by
  obtain ⟨log, hnote⟩ := arb.noteHandOff_apply s!"thread {tid} finished" m
  rw [endThread, bind_of_ok hnote]
  cases hs : m.table.state? tid with
  | none =>
    rw [bind_of_error (stateOf_of_none (m := { m with log }) hs)]
    exact .unknown hs
  | some s =>
    rw [bind_of_ok (stateOf_of_some (m := { m with log }) hs)]
    cases s with
    | uncaptured => exact .outside hs
    | running =>
      dsimp only
      by_cases h : m.captured = 1 ∧ m.executor = tid
      · rw [bind_of_ok (exitRunning_of_last (m := { m with log }) hs h.1 h.2),
          bind_of_ok (tell_apply _ _)]
        exact .last hs h.1 h.2
      · have hnot : m.captured ≠ 1 ∨ m.executor ≠ tid := Decidable.not_and_iff_or_not.mp h
        obtain ⟨check, hexit⟩ := exitRunning_refused (m := { m with log }) hnot
        rw [bind_of_error hexit]
        exact .refused hs (by decide) fun _ => hnot
    | idle => exact .refused hs (by decide) nofun
    | blocked => exact .refused hs (by decide) nofun

end Arbiter

end SoleRunner
