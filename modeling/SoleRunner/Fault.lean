import SoleRunner.CodeUnit
import SoleRunner.Config
import SoleRunner.ThreadId
import SoleRunner.ThreadState
import SoleRunner.Text.Quoted

/-!
# Fault — everything that can go wrong, by cause

A fault is a broken contract of the scheduler (`Violation`), an expectation of the arbiter itself that
does not hold (`Check`), or a refused request.  The wording of each cause is in `Fault.message`;
`Fault.inspect` shows the value itself.
-/

namespace SoleRunner

/-! ## Causes -/

/-- The ways a scheduler can break its contract. -/
inductive Violation where
  /-- It named a thread outside the table. -/
  | outOfRange (tid : ThreadId) (capacity : Nat)
  /-- It named a thread that is not `idle`. -/
  | notIdle (tid : ThreadId) (state : ThreadState)
  /-- It armed a block twice before a switch. -/
  | alreadyArmed
  /-- It kept the runner while a block was armed. -/
  | keptWhileArmed (tid : ThreadId)
  /-- A switch hook ran in a context that is not the executor's. -/
  | notExecutor (tid executor : ThreadId)
  /-- It asked for a switch point that is not before an operation. -/
  | unsupportedPlacement (point : HookPoint)
  /-- It asked for a switch point past the end of the unit. -/
  | placementOutOfRange (index length : Nat)
deriving DecidableEq

/-- The expectations that the arbiter and its substrate check as they go. -/
inductive Check where
  | registersDiffer
  | capturedCountMatches
  | nobodyRunsUncaptured
  | runnerIsTheOneRunning
  | executorIffCaptured
  | uncaptureHasCaptured
  | resumeHasRunner
  | startsUncaptured
  | exitsAlone
  | exitsAsExecutor
  | exitsUncaptured
  | returnsAsExecutor
  | returnsAsRunner
  | returnsAlone
  | arrivesUncaptured
  | firstFindsNoRunner
  | owingRunnerIsExecutor
  | oneNewcomer
  | departsAsExecutor
  | shippedWithOthers
  | owesOnce
  | switchesAsExecutor
  | switchChangesThread
  | blockedRunnerCounted
  | transitionFrom
  | contextSaved
  | registersClaimed
  | substrateAttached
  | threadsSurvive
  /-- An expectation of some other part of the program, in its own words. -/
  | other (text : String)
deriving DecidableEq

/-- What is reported when the expectation does not hold. -/
def Check.text : Check → String
  | registersDiffer => "substrate handed out the same register twice"
  | capturedCountMatches => "captured count disagrees with the table"
  | nobodyRunsUncaptured => "running thread with nothing captured"
  | runnerIsTheOneRunning => "current runner is not the one running thread"
  | executorIffCaptured => "executor present without captured threads, or missing with them"
  | uncaptureHasCaptured => "uncapture with nothing captured"
  | resumeHasRunner => "executor resume with no current runner"
  | startsUncaptured => "thread started in a captured state"
  | exitsAlone => "running thread exited with others captured"
  | exitsAsExecutor => "running thread exited without the executor role"
  | exitsUncaptured => "thread exited while captured"
  | returnsAsExecutor => "running thread re-captured without the executor role"
  | returnsAsRunner => "running thread is not the current runner"
  | returnsAlone => "running thread re-captured alongside others"
  | arrivesUncaptured => "capture point reached by a captured thread"
  | firstFindsNoRunner => "first capture with a runner already set"
  | owingRunnerIsExecutor => "delayed uncapture with a foreign runner"
  | oneNewcomer => "delayed uncapture with more than one newcomer"
  | departsAsExecutor => "syscall point reached by a non-executor"
  | shippedWithOthers => "shipped syscall with a lone runner"
  | owesOnce => "executor entered a syscall twice"
  | switchesAsExecutor => "switch point reached by a non-executor"
  | switchChangesThread => "switch point without a thread change"
  | blockedRunnerCounted => "blocked a runner with nothing captured"
  | transitionFrom => "unexpected thread state in transition"
  | contextSaved => "no saved context for thread"
  | registersClaimed => "scheduler registers not claimed"
  | substrateAttached => "substrate not attached"
  | threadsSurvive => "simulated thread panicked"
  | other text => text

/-- The administrative requests that ask for a thread in a certain state. -/
inductive Request where
  | blockIdle
  | unblock
  | contextAccess
  /-- A request of some other part of the program, by its own name. -/
  | other (text : String)
deriving DecidableEq

/-- The request as it stands in messages. -/
def Request.text : Request → String
  | blockIdle => "block_idle_thread"
  | unblock => "unblock"
  | contextAccess => "context access"
  | other text => text

/-- **Everything that can go wrong.** -/
inductive Fault where
  | violation (v : Violation)
  | broken (check : Check)
  | capacityExceeded (tid : ThreadId) (capacity : Nat)
  | wrongState (tid : ThreadId) (state : ThreadState) (request : Request)
  /-- Blocking the thread would leave none to run. -/
  | lastRunnable (tid : ThreadId)
  | alreadyInitialized
  | registersExhausted
  | invalidConfig (problem : Config.Problem)
deriving DecidableEq

/-! ## In words -/

/-- The violation in words. -/
def Violation.message : Violation → String
  | outOfRange tid capacity => s!"returned invalid tid {tid} (max {capacity})"
  | notIdle tid state => s!"returned tid {tid}, which is not IDLE (state {state})"
  | alreadyArmed => "block-after-switch already armed"
  | keptWhileArmed tid =>
    s!"switch decision from thread {tid} armed block-after-switch but returned the same thread"
  | notExecutor tid executor =>
    s!"thread {tid} hit a switch point but the executor is {executor}"
  | unsupportedPlacement point => s!"switch points only support Before, got {point}"
  | placementOutOfRange index length => s!"switch point at op {index} in a unit of {length} ops"

/-- **The fault in words.** -/
def Fault.message : Fault → String
  | violation v => "scheduler contract violation: " ++ v.message
  | broken check => "invariant broken: " ++ check.text
  | capacityExceeded tid capacity => s!"thread {tid} exceeds capacity of {capacity} threads"
  | wrongState tid state request =>
    request.text ++ s!" on thread {tid} in state {state}"
  | lastRunnable tid => s!"cannot block thread {tid}: it is the last runnable thread"
  | alreadyInitialized => "arbiter already initialized"
  | registersExhausted => "no scheduler register slots available"
  | invalidConfig problem => "invalid config: " ++ problem.text

/-- The line printed when a fault ends the process. -/
def Fault.finalLine (f : Fault) : String := "[vspin] Panic: " ++ f.message

/-! ## As values -/

/-- A constructor with named fields, inspected. -/
def inspectFields (name : String) (fields : List (String × String)) : String :=
  name ++ " \x7b " ++ String.intercalate ", " (fields.map fun (key, value) => key ++ ": " ++ value) ++
    " \x7d"

/-- A constructor with one unnamed field, inspected. -/
def inspectWrapped (name inner : String) : String := name ++ "(" ++ inner ++ ")"

/-- The violation as a value. -/
def Violation.inspect : Violation → String
  | outOfRange tid capacity =>
    inspectFields "TidOutOfRange" [("tid", tid.inspect), ("max", toString capacity)]
  | notIdle tid state =>
    inspectFields "NotIdle" [("tid", tid.inspect), ("state", state.inspect)]
  | alreadyArmed => "AlreadyArmed"
  | keptWhileArmed tid => inspectWrapped "SameThreadWhileArmed" tid.inspect
  | notExecutor tid executor =>
    inspectFields "NotExecutor" [("tid", tid.inspect), ("executor", executor.inspect)]
  | unsupportedPlacement point => inspectWrapped "UnsupportedPlacement" point.text
  | placementOutOfRange index length =>
    inspectFields "PlacementOutOfRange" [("index", toString index), ("len", toString length)]

/-- The fault as a value. -/
def Fault.inspect : Fault → String
  | violation v => inspectWrapped "ContractViolation" v.inspect
  | broken check => inspectWrapped "InvariantBroken" (Text.quoted check.text)
  | capacityExceeded tid capacity =>
    inspectFields "CapacityExceeded" [("tid", tid.inspect), ("max", toString capacity)]
  | wrongState tid state request =>
    inspectFields "InvalidState"
      [("tid", tid.inspect), ("state", state.inspect), ("op", Text.quoted request.text)]
  | lastRunnable tid => inspectWrapped "LastRunnable" tid.inspect
  | alreadyInitialized => "AlreadyInitialized"
  | registersExhausted => "RegisterExhausted"
  | invalidConfig problem => inspectWrapped "Config" (Text.quoted problem.text)

end SoleRunner
