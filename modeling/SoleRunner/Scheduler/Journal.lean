import SoleRunner.Scheduler

/-!
# Scheduler/Journal — a scheduler whose calls are written down

`journaled` does what the scheduler under it does and keeps a list of the calls, with their arguments
as the arbiter passed them.
-/

namespace SoleRunner

/-- A call that the arbiter made to a scheduler. -/
inductive Callback (C : Type) where
  | switchPoints (u : CodeUnit)
  | started (tid : ThreadId)
  | ended (tid : ThreadId)
  | joined (tid : ThreadId) (isFirst : Bool)
  /-- With the context as received. -/
  | choose (tid : ThreadId) (context : C)
deriving DecidableEq

/-- A scheduler's state, and the calls made so far. -/
structure Journal (C σ : Type) where
  state : σ
  calls : List (Callback C) := []

namespace Journal

variable {C σ : Type}

/-- Writes a call down and goes on with state `s`. -/
def add (j : Journal C σ) (call : Callback C) (s : σ) : Journal C σ :=
  ⟨s, j.calls ++ [call]⟩

@[simp] theorem state_add (j : Journal C σ) (call : Callback C) (s : σ) :
    (j.add call s).state = s := rfl

@[simp] theorem calls_add (j : Journal C σ) (call : Callback C) (s : σ) :
    (j.add call s).calls = j.calls ++ [call] := rfl

end Journal

namespace Scheduler

variable {C σ : Type}

/-- **The scheduler with a journal.** -/
def journaled (p : Scheduler C σ) : Scheduler C (Journal C σ) where
  switchPoints u j :=
    let (asked, s) := p.switchPoints u j.state
    (asked, j.add (.switchPoints u) s)
  started tid j := j.add (.started tid) (p.started tid j.state)
  ended tid j := j.add (.ended tid) (p.ended tid j.state)
  joined tid isFirst j := j.add (.joined tid isFirst) (p.joined tid isFirst j.state)
  choose tid c j :=
    let (next, c', s) := p.choose tid c j.state
    (next, c', j.add (.choose tid c) s)

theorem calls_journaled_choose (p : Scheduler C σ) (tid : ThreadId) (c : C) (j : Journal C σ) :
    (p.journaled.choose tid c j).2.2.calls = j.calls ++ [.choose tid c] := rfl

end Scheduler

end SoleRunner
