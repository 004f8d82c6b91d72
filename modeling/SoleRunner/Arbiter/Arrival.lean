import SoleRunner.Arbiter.Runner

/-!
# Arbiter/Arrival — a thread enters controlled code

An arriving thread joins the captured threads, settles an uncapture that is still owed, and takes the
executor role if it is vacant (`arrive`).  Otherwise it waits at its wake slot; each time it wakes it
looks again (`lookAgain`), because a newcomer may have been faster.
-/

namespace SoleRunner

/-- Where an arrival stands after a critical section: it is over, or it waits. -/
inductive Arrival (C : Type) where
  | resumed (r : Resume C)
  | waiting
deriving DecidableEq

namespace Arbiter

open Critical

variable {C σ : Type} [Context C]

/-- The only captured thread is back from its system call: it never gave up the executor role. -/
def keepRole (arb : Arbiter C σ) (tid : ThreadId) : Critical C σ (Resume C) := do
  expect ((← get).executor = tid) .returnsAsExecutor
  expect ((← get).runner = tid) .returnsAsRunner
  expect ((← get).captured = 1) .returnsAlone
  setOwed false
  note .trace s!"[{tid}] capture: sole thread keeps the executor role"
  arb.resumeRunner

/-- `tid` joins the captured threads; the first one runs. -/
def join (arb : Arbiter C σ) (tid : ThreadId) : Critical C σ Unit := do
  let isFirst := (← get).captured == 0
  tell (arb.scheduler.joined tid isFirst)
  setCaptured ((← get).captured + 1)
  setState tid .idle
  tally fun s => { s with captures := s.captures + 1 }
  if isFirst then
    expect ((← get).runner = .nobody) .firstFindsNoRunner
    setState tid .running
    setRunner tid

/-- The executor is in a system call that it entered alone; now that there is somebody else to run, it
is uncaptured. -/
def payUncapture (arb : Arbiter C σ) (tid : ThreadId) : Critical C σ Unit := do
  expect ((← get).runner = (← get).executor) .owingRunnerIsExecutor
  expect ((← get).captured = 2) .oneNewcomer
  arb.replaceRunner
  setExecutor .nobody
  setOwed false
  tally fun s => { s with delayed := s.delayed + 1 }
  arb.noteHandOff s!"[{tid}] capture: settled delayed uncapture"

/-- `tid` takes the vacant executor role, and goes on as the runner. -/
def takeRole (arb : Arbiter C σ) (tid : ThreadId) : Critical C σ (Resume C) := do
  setExecutor tid
  let runner := (← get).runner
  arb.noteHandOff s!"[{tid}] capture: took executor role, running {runner}"
  arb.resumeRunner

/-- **The first critical section of an arrival.** -/
def arrive (arb : Arbiter C σ) (tid : ThreadId) (context : C) : Critical C σ (Arrival C) := do
  storeContext tid context
  match ← stateOf tid with
  | .running => return .resumed (← arb.keepRole tid)
  | .uncaptured =>
    arb.join tid
    if (← get).owesUncapture then arb.payUncapture tid
    if (← get).executor = .nobody then return .resumed (← arb.takeRole tid)
    else return .waiting
  | .idle | .blocked => throw (.broken .arrivesUncaptured)

/-- **An arrival looks again** after its wait returned: its system call was shipped, or the executor role
is vacant, or it was woken for nothing and waits on. -/
def lookAgain (arb : Arbiter C σ) (tid : ThreadId) : Critical C σ (Arrival C) := do
  if (← stateOf tid) = .uncaptured then
    note .trace s!"[{tid}] capture: woken uncaptured"
    return .resumed (← arb.resumeOwn tid)
  else if (← get).executor = .nobody then
    return .resumed (← arb.takeRole tid)
  else
    tally fun s => { s with spurious := s.spurious + 1 }
    return .waiting

/-- A wait at the wake slot: with a permit there it returns at once, and the arrival looks again.  The
wait after that finds no permit, since looking posts none. -/
def await (arb : Arbiter C σ) (tid : ThreadId) : Critical C σ (Arrival C) := do
  if ← takePermit tid then arb.lookAgain tid else return .waiting

/-- An arrival, until it is over or sleeps at its wake slot. -/
def enter (arb : Arbiter C σ) (tid : ThreadId) (context : C) : Critical C σ (Arrival C) := do
  match ← arb.arrive tid context with
  | .resumed r => return .resumed r
  | .waiting => arb.await tid

end Arbiter

end SoleRunner
