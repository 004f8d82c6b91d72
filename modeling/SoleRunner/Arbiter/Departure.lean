import SoleRunner.Arbiter.Runner

/-!
# Arbiter/Departure — the executor reaches a system call

The thread whose code reached the call leaves the captured threads and makes the call on its own OS
thread.  If the executor runs another thread's code, that thread is woken to make its call (`ship`); if
it runs its own with others captured, it hands the role over (`handOver`); alone, it keeps the role and
owes its uncapture to the next arrival (`owe`).
-/

namespace SoleRunner.Arbiter

open Critical

variable {C σ : Type} [Context C]

/-- The call belongs to another thread: that one is uncaptured and woken, and the executor goes on. -/
def ship (arb : Arbiter C σ) (tid owner : ThreadId) : Critical C σ (Resume C) := do
  expect (2 ≤ (← get).captured) .shippedWithOthers
  arb.replaceRunner
  arb.wake owner
  tally fun s => { s with shipped := s.shipped + 1 }
  let next := (← get).runner
  note .trace s!"[{tid}] syscall: shipped to {owner}, now running {next}"
  arb.resumeRunner

/-- The call is the executor's own: it gives up the role and wakes the next runner. -/
def handOver (arb : Arbiter C σ) (tid : ThreadId) : Critical C σ Unit := do
  arb.replaceRunner
  setExecutor .nobody
  let next := (← get).runner
  arb.wake next
  arb.noteHandOff s!"[{tid}] syscall: handed the executor role to {next}"

/-- Nobody else is captured: the executor keeps the role through its call. -/
def owe (tid : ThreadId) : Critical C σ Unit := do
  expect ((← get).owesUncapture = false) .owesOnce
  setOwed true
  note .trace s!"[{tid}] syscall: sole thread keeps the executor role"

/-- **A departure**, in one critical section. -/
def depart (arb : Arbiter C σ) (tid : ThreadId) (context : C) : Critical C σ (Resume C) := do
  expect ((← get).executor = tid) .departsAsExecutor
  let owner := (← get).runner
  storeContext owner context
  if owner ≠ tid then arb.ship tid owner
  else
    if 2 ≤ (← get).captured then arb.handOver tid else owe tid
    arb.resumeOwn tid

end SoleRunner.Arbiter
