import SoleRunner.Arbiter.Call
import SoleRunner.Proofs.Outcome.Lifecycle
import SoleRunner.Proofs.Outcome.Requests

/-!
# Proofs/Frame — what requests leave alone

An OS thread depends on who the runner and the executor are, on the debt of an uncapture, on the permits
and on who is inside the program.  A ledger that agrees with another one on all of these keeps it
(`Ledger.Keeps`).  No request from outside changes any of them, granted or refused, and neither do
plans, starts, and exits of threads outside.
-/

namespace SoleRunner

namespace Ledger

variable {C σ : Type}

/-- **`m'` is `m` as far as OS threads can tell.** -/
structure Keeps (m m' : Ledger C σ) : Prop where
  runner_eq : m'.runner = m.runner
  executor_eq : m'.executor = m.executor
  owes_eq : m'.owesUncapture = m.owesUncapture
  permits_eq : m'.permits = m.permits
  capacity_eq : m'.table.capacity = m.table.capacity
  inside_iff : ∀ u, m'.table.Inside u ↔ m.table.Inside u
  outside_iff : ∀ u, m'.table.Outside u ↔ m.table.Outside u

variable {m : Ledger C σ} {tid : ThreadId} {s : ThreadState}

theorem Keeps.refl (m : Ledger C σ) : m.Keeps m :=
  ⟨rfl, rfl, rfl, rfl, rfl, fun _ => .rfl, fun _ => .rfl⟩

/-- Saved contexts are none of it. -/
theorem keeps_withSaved (m : Ledger C σ) (tid : ThreadId) (c : C) : m.Keeps (m.withSaved tid c) :=
  ⟨rfl, rfl, rfl, rfl, capacity_withSaved m tid c, fun _ => inside_withSaved,
    fun _ => outside_withSaved⟩

/-- A thread that moves about inside the program is kept there. -/
theorem keeps_mark (h : m.table.Inside tid) (hs : s ≠ .uncaptured) (captured : Nat) (stats : Stats)
    (log : Array Log.Entry) :
    m.Keeps { m with table := m.table.mark tid s, captured, stats, log } :=
  ⟨rfl, rfl, rfl, rfl, Table.capacity_mark, fun _ => Table.inside_mark_of_inside h hs,
    fun _ => Table.outside_mark_of_inside h hs⟩

/-- A thread that starts is told to the scheduler and to the log only. -/
theorem keeps_begun (m : Ledger C σ) (p : Scheduler C σ) (tid : ThreadId) (log : Array Log.Entry) :
    m.Keeps (m.begun p tid log) := ⟨rfl, rfl, rfl, rfl, rfl, fun _ => .rfl, fun _ => .rfl⟩

/-- A thread that exits outside the program is told to the scheduler and to the log only. -/
theorem keeps_ended (m : Ledger C σ) (p : Scheduler C σ) (tid : ThreadId) (log : Array Log.Entry) :
    m.Keeps (m.ended p tid log) := ⟨rfl, rfl, rfl, rfl, rfl, fun _ => .rfl, fun _ => .rfl⟩

theorem keeps_logged (m : Ledger C σ) (log : Array Log.Entry) : m.Keeps (m.logged log) :=
  ⟨rfl, rfl, rfl, rfl, rfl, fun _ => .rfl, fun _ => .rfl⟩

/-- What two steps keep one after the other, they keep together. -/
theorem Keeps.trans {m m' m'' : Ledger C σ} (h : m.Keeps m') (h' : m'.Keeps m'') : m.Keeps m'' where
  runner_eq := h'.runner_eq.trans h.runner_eq
  executor_eq := h'.executor_eq.trans h.executor_eq
  owes_eq := h'.owes_eq.trans h.owes_eq
  permits_eq := h'.permits_eq.trans h.permits_eq
  capacity_eq := h'.capacity_eq.trans h.capacity_eq
  inside_iff u := (h'.inside_iff u).trans (h.inside_iff u)
  outside_iff u := (h'.outside_iff u).trans (h.outside_iff u)

/-- The scheduler's own state is none of it. -/
theorem keeps_think (m : Ledger C σ) (s : σ) : m.Keeps { m with schedulerState := s } :=
  ⟨rfl, rfl, rfl, rfl, rfl, fun _ => .rfl, fun _ => .rfl⟩

end Ledger

namespace Arbiter

open Critical

variable {C σ α : Type} {arb : Arbiter C σ} {m : Ledger C σ} {tid : ThreadId}

/-- A request to block moves a thread about inside the program, if anything. -/
theorem Blocks.keeps {r : EStateM.Result Fault (Ledger C σ) Unit} (hr : Blocks tid m r) :
    m.Keeps (left r) := by
  cases hr with
  | unknown => exact .refl m
  | refused => exact .refl m
  | last => exact .refl m
  | blocked hs => exact Ledger.keeps_mark (Table.inside_of_state hs (by decide)) (by decide) _ _ _

/-- A request to unblock moves a thread about inside the program, if anything. -/
theorem Unblocks.keeps {r : EStateM.Result Fault (Ledger C σ) Unit} (hr : Unblocks tid m r) :
    m.Keeps (left r) := by
  cases hr with
  | unknown => exact .refl m
  | refused => exact .refl m
  | unblocked hs => exact Ledger.keeps_mark (Table.inside_of_state hs (by decide)) (by decide) _ _ _

/-- An edit changes a saved context, if anything. -/
theorem Edits.keeps {r : EStateM.Result Fault (Ledger C σ) α} (hr : Edits tid m r) :
    m.Keeps (left r) := by
  cases hr with
  | refused => exact .refl m
  | edited => exact m.keeps_withSaved _ _

/-- An armed block is not seen by OS threads before a switch spends it. -/
theorem keeps_armBlock (m : Ledger C σ) : m.Keeps (left (armBlock m)) := by
  rw [armBlock_apply]
  split
  · exact .refl m
  · exact ⟨rfl, rfl, rfl, rfl, rfl, fun _ => .rfl, fun _ => .rfl⟩

/-- A plan is counted and logged. -/
theorem keeps_planUnit (arb : Arbiter C σ) (u : CodeUnit) (m : Ledger C σ) :
    m.Keeps (left (arb.planUnit u m)) := by
  obtain ⟨e, h⟩ | ⟨p, log, h⟩ := arb.planUnit_apply u m
  · rw [h]
    exact ⟨rfl, rfl, rfl, rfl, rfl, fun _ => .rfl, fun _ => .rfl⟩
  · rw [h]
    exact ⟨rfl, rfl, rfl, rfl, rfl, fun _ => .rfl, fun _ => .rfl⟩

/-- **No request changes what OS threads depend on**, granted or refused. -/
theorem keeps_request [Context C] (arb : Arbiter C σ) {call : Call C} (hc : call.isHandler = false)
    (m : Ledger C σ) : m.Keeps (left (arb.perform call m)) := by
  cases call with
  | start => nomatch hc
  | finish => nomatch hc
  | arrive => nomatch hc
  | depart => nomatch hc
  | switch => nomatch hc
  | plan => nomatch hc
  | armBlock => exact left_answer m.Keeps (keeps_armBlock m)
  | block tid => exact left_answer m.Keeps (arb.block_outcome tid m).keeps
  | unblock tid => exact left_answer m.Keeps (arb.unblock_outcome tid m).keeps
  | readRegister tid r => exact left_answer m.Keeps (editContext_outcome tid _ m).keeps
  | writeRegister tid r v => exact left_answer m.Keeps (editContext_outcome tid _ m).keeps
  | copyContext tid => exact left_answer m.Keeps (editContext_outcome tid _ m).keeps
  | replaceContext tid c => exact left_answer m.Keeps (editContext_outcome tid _ m).keeps

/-! ## The scheduler -/

/-- The scheduler is not told of a blocked thread. -/
theorem Blocks.schedulerState_eq {r : EStateM.Result Fault (Ledger C σ) Unit} (hr : Blocks tid m r) :
    (left r).schedulerState = m.schedulerState := by cases hr <;> rfl

/-- The scheduler is not told of an unblocked thread. -/
theorem Unblocks.schedulerState_eq {r : EStateM.Result Fault (Ledger C σ) Unit}
    (hr : Unblocks tid m r) : (left r).schedulerState = m.schedulerState := by cases hr <;> rfl

/-- The scheduler is not told of an edited context. -/
theorem Edits.schedulerState_eq {r : EStateM.Result Fault (Ledger C σ) α} (hr : Edits tid m r) :
    (left r).schedulerState = m.schedulerState := by cases hr <;> rfl

/-- The scheduler is not told of an armed block. -/
theorem schedulerState_armBlock (m : Ledger C σ) :
    (left (armBlock m)).schedulerState = m.schedulerState := by
  rw [armBlock_apply]
  split <;> rfl

/-- **No request calls the scheduler**, granted or refused. -/
theorem schedulerState_request [Context C] (arb : Arbiter C σ) {call : Call C}
    (hc : call.isHandler = false) (m : Ledger C σ) :
    (left (arb.perform call m)).schedulerState = m.schedulerState := by
  have hanswer {α β : Type} {x : Critical C σ α} {f : α → β} :=
    left_answer (fun n : Ledger C σ => n.schedulerState = m.schedulerState) (m := m) (x := x) (f := f)
  cases call with
  | start | finish | arrive | depart | switch | plan => nomatch hc
  | armBlock => exact hanswer (schedulerState_armBlock m)
  | block tid => exact hanswer (arb.block_outcome tid m).schedulerState_eq
  | unblock tid => exact hanswer (arb.unblock_outcome tid m).schedulerState_eq
  | readRegister tid r => exact hanswer (editContext_outcome tid _ m).schedulerState_eq
  | writeRegister tid r v => exact hanswer (editContext_outcome tid _ m).schedulerState_eq
  | copyContext tid => exact hanswer (editContext_outcome tid _ m).schedulerState_eq
  | replaceContext tid c => exact hanswer (editContext_outcome tid _ m).schedulerState_eq

end Arbiter

end SoleRunner
