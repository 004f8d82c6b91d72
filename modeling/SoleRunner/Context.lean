import SoleRunner.ThreadId

/-!
# Context — what a thread's execution state looks like to the arbiter

The arbiter keeps one saved context per thread and never looks inside, except that it reads and writes
the registers it was given.  `Resume` is what every handler hands back: whose context to go on with,
and in which role.
-/

namespace SoleRunner

/-- A register slot of the substrate. -/
structure Register where
  slot : UInt16
deriving DecidableEq, Inhabited

/-- A snapshot of a thread's execution state, with registers that can be read and written. -/
class Context (C : Type) where
  reg : C → Register → UInt64
  setReg : C → Register → UInt64 → C

/-- How an OS thread goes on after a handler. -/
inductive Role where
  /-- As the executor, running the current runner's code. -/
  | executor
  /-- Uninstrumented, in its own code. -/
  | uncaptured
deriving DecidableEq

/-- **The answer of a handler**: go on in `role` with the saved context of thread `tid`.  For an
executor `tid` is the current runner, which need not be the thread that called. -/
structure Resume (C : Type) where
  tid : ThreadId
  role : Role
  context : C
deriving DecidableEq

end SoleRunner
