import SoleRunner.Arbiter.Planning
import SoleRunner.Arbiter.Requests
import SoleRunner.Proofs.Steps

/-!
# Proofs/Outcome/Requests — every way in which a request from outside can end

A request that is refused leaves the ledger as it was.  One that is granted moves one thread between
idle and blocked (`Ledger.benched`, `Ledger.revived`), arms a block, or saves one context of a thread
that does not run.
-/

namespace SoleRunner

namespace Ledger

variable {C σ : Type}

/-- The ledger once an idle `tid` has been taken out of the pool. -/
def benched (m : Ledger C σ) (tid : ThreadId) (log : Array Log.Entry) : Ledger C σ :=
  { m with
    table := m.table.mark tid .blocked
    captured := m.captured - 1
    stats := { m.stats with blocks := m.stats.blocks + 1 }
    log }

/-- The ledger once a blocked `tid` has been put back into the pool. -/
def revived (m : Ledger C σ) (tid : ThreadId) (log : Array Log.Entry) : Ledger C σ :=
  { m with
    table := m.table.mark tid .idle
    captured := m.captured + 1
    stats := { m.stats with unblocks := m.stats.unblocks + 1 }
    log }

end Ledger

namespace Arbiter

open Critical

variable {C σ α : Type} {arb : Arbiter C σ} {m : Ledger C σ} {tid : ThreadId}

theorem demandState_of_some {s t : ThreadState} (h : m.table.state? tid = some s) (r : Request) :
    demandState tid t r m = if s = t then .ok () m else .error (.wrongState tid s r) m := by
  rw [demandState, bind_of_ok (stateOf_of_some h), if_apply]
  by_cases e : s = t
  · rw [if_neg (not_not_intro e), if_pos e]
    rfl
  · rw [if_pos e, if_neg e]
    rfl

theorem demandState_of_none {t : ThreadState} (h : m.table.state? tid = none) (r : Request) :
    demandState tid t r m = .error (.capacityExceeded tid m.table.capacity) m := by
  rw [demandState, bind_of_error (stateOf_of_none h)]

/-! ## Arming a block -/

theorem armBlock_apply (m : Ledger C σ) :
    armBlock m = if m.armed then .error (.violation .alreadyArmed) m
      else .ok () { m with armed := true, armedHint := true } := by
  rw [armBlock, bind_of_ok (get_apply m)]
  cases m.armed <;> rfl

/-! ## The pool -/

/-- **How a request to block an idle thread can end**, on ledger `m`. -/
inductive Blocks (tid : ThreadId) (m : Ledger C σ) : EStateM.Result Fault (Ledger C σ) Unit → Prop
  | unknown (hs : m.table.state? tid = none) :
      Blocks tid m (.error (.capacityExceeded tid m.table.capacity) m)
  | refused {s : ThreadState} (hs : m.table.state? tid = some s) (hne : s ≠ .idle) :
      Blocks tid m (.error (.wrongState tid s .blockIdle) m)
  /-- No other captured thread would be left. -/
  | last (hs : m.table.state? tid = some .idle) (hn : m.captured ≤ 1) :
      Blocks tid m (.error (.lastRunnable tid) m)
  | blocked {log : Array Log.Entry} (hs : m.table.state? tid = some .idle) (hn : 1 < m.captured) :
      Blocks tid m (.ok () (m.benched tid log))

/-- **A request to block an idle thread ends in one of the listed ways.** -/
theorem block_outcome (arb : Arbiter C σ) (tid : ThreadId) (m : Ledger C σ) :
    Blocks tid m (arb.block tid m) := by
  cases hs : m.table.state? tid with
  | none =>
    rw [block, bind_of_error (demandState_of_none hs _)]
    exact .unknown hs
  | some s =>
    rcases eq_or_ne s .idle with rfl | hi
    · rw [block, bind_of_ok ((demandState_of_some hs _).trans (if_pos rfl)),
        bind_of_ok (get_apply m)]
      by_cases hn : m.captured ≤ 1
      · rw [if_pos hn]
        exact .last hs hn
      · obtain ⟨log, hnote⟩ := arb.noteHandOff_apply s!"blocked idle thread {tid}" (m.benched tid m.log)
        rw [if_neg hn]
        dsimp only
        rw [bind_of_ok (setState_of_some hs), bind_of_ok (get_apply _),
          bind_of_ok (setCaptured_apply _ _), bind_of_ok (tally_apply _ _)]
        exact hnote.symm ▸ .blocked hs (Nat.not_le.mp hn)
    · rw [block, bind_of_error ((demandState_of_some hs _).trans (if_neg hi))]
      exact .refused hs hi

/-- **How a request to unblock a thread can end**, on ledger `m`. -/
inductive Unblocks (tid : ThreadId) (m : Ledger C σ) : EStateM.Result Fault (Ledger C σ) Unit → Prop
  | unknown (hs : m.table.state? tid = none) :
      Unblocks tid m (.error (.capacityExceeded tid m.table.capacity) m)
  | refused {s : ThreadState} (hs : m.table.state? tid = some s) (hne : s ≠ .blocked) :
      Unblocks tid m (.error (.wrongState tid s .unblock) m)
  | unblocked {log : Array Log.Entry} (hs : m.table.state? tid = some .blocked) :
      Unblocks tid m (.ok () (m.revived tid log))

/-- **A request to unblock a thread ends in one of the listed ways.** -/
theorem unblock_outcome (arb : Arbiter C σ) (tid : ThreadId) (m : Ledger C σ) :
    Unblocks tid m (arb.unblock tid m) := by
  cases hs : m.table.state? tid with
  | none =>
    rw [unblock, bind_of_error (demandState_of_none hs _)]
    exact .unknown hs
  | some s =>
    rcases eq_or_ne s .blocked with rfl | hi
    · obtain ⟨log, hnote⟩ := arb.noteHandOff_apply s!"unblocked thread {tid}" (m.revived tid m.log)
      rw [unblock, bind_of_ok ((demandState_of_some hs _).trans (if_pos rfl)),
        bind_of_ok (setState_of_some hs), bind_of_ok (get_apply _), bind_of_ok (setCaptured_apply _ _),
        bind_of_ok (tally_apply _ _)]
      exact hnote.symm ▸ .unblocked hs
    · rw [unblock, bind_of_error ((demandState_of_some hs _).trans (if_neg hi))]
      exact .refused hs hi

/-! ## Saved contexts -/

/-- **How a request about a saved context can end**, on ledger `m`. -/
inductive Edits (tid : ThreadId) (m : Ledger C σ) : EStateM.Result Fault (Ledger C σ) α → Prop
  | refused {e : Fault} : Edits tid m (.error e m)
  | edited {a : α} {s : ThreadState} {c : C} (hs : m.table.state? tid = some s)
      (ho : s.hasOpenContext) : Edits tid m (.ok a (m.withSaved tid c))

/-- **A request about a saved context ends in one of the listed ways.** -/
theorem editContext_outcome (tid : ThreadId) (f : C → α × C) (m : Ledger C σ) :
    Edits tid m (editContext tid f m) := by
  cases hs : m.table.state? tid with
  | none =>
    rw [editContext, bind_of_error (stateOf_of_none hs)]
    exact .refused
  | some s =>
    rw [editContext, bind_of_ok (stateOf_of_some hs)]
    cases ho : s.hasOpenContext with
    | false => exact .refused
    | true =>
      rw [if_neg (by decide)]
      dsimp only
      cases hc : m.table.saved? tid with
      | none =>
        rw [bind_apply, contextOf_apply, Table.context_of_unsaved hs hc]
        exact .refused
      | some c =>
        rw [bind_of_ok (contextOf_of_saved hc), bind_of_ok (modifyContext_of_saved hc _)]
        exact .edited hs ho

/-! ## Plans -/

/-- Planning a unit touches the scheduler, the statistics and the log only. -/
theorem planUnit_apply (arb : Arbiter C σ) (u : CodeUnit) (m : Ledger C σ) :
    (∃ e, arb.planUnit u m = .error e { m with
      stats := { m.stats with units := m.stats.units + 1 }
      schedulerState := (arb.scheduler.switchPoints u m.schedulerState).2 }) ∨
    ∃ p log, arb.planUnit u m = .ok p { m with
      stats := { m.stats with units := m.stats.units + 1 }
      schedulerState := (arb.scheduler.switchPoints u m.schedulerState).2
      log } := by
  rw [planUnit, bind_of_ok (get_apply m)]
  dsimp only
  rw [bind_of_ok (tell_apply _ _), bind_of_ok (tally_apply _ _)]
  cases Plan.ofTrace u
    ((UnitTrace.ofUnit u).requestAll (arb.scheduler.switchPoints u m.schedulerState).1) with
  | error e => exact .inl ⟨e, rfl⟩
  | ok p => exact .inr ⟨p, _, rfl⟩

end Arbiter

end SoleRunner
