import SoleRunner.Arbiter.Runner

/-!
# Arbiter/Lifecycle — threads come and go

A thread starts uncaptured, and exits uncaptured — unless it is the only captured one: then it may exit
as the executor, and leaves the arbiter empty.
-/

namespace SoleRunner.Arbiter

open Critical

variable {C σ : Type}

/-- A new OS thread exists; the answer is its context, marked as not the executor's. -/
def startThread [Context C] (arb : Arbiter C σ) (tid : ThreadId) (context : C) : Critical C σ C := do
  ofExcept ((← get).table.check tid)
  arb.noteHandOff s!"thread {tid} started"
  tell (arb.scheduler.started tid)
  tally fun s => { s with starts := s.starts + 1 }
  expect ((← stateOf tid) = .uncaptured) .startsUncaptured
  return Context.setReg context arb.roleReg 0

/-- The running thread exits, which only the last captured thread may do. -/
def exitRunning (tid : ThreadId) : Critical C σ Unit := do
  expect ((← get).captured = 1) .exitsAlone
  expect ((← get).executor = tid) .exitsAsExecutor
  setState tid .uncaptured
  setCaptured 0
  setOwed false
  setRunner .nobody
  setExecutor .nobody

/-- An OS thread exited. -/
def endThread (arb : Arbiter C σ) (tid : ThreadId) : Critical C σ Unit := do
  arb.noteHandOff s!"thread {tid} finished"
  match ← stateOf tid with
  | .running => exitRunning tid
  | .uncaptured => pure ()
  | .idle | .blocked => throw (.broken .exitsUncaptured)
  tell (arb.scheduler.ended tid)
  tally fun s => { s with ends := s.ends + 1 }

end SoleRunner.Arbiter
