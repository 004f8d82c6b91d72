import SoleRunner.ThreadId

/-!
# Simulation/History — what simulated threads did, and the report of it

A history lists what the OS threads of a run did at their operations, oldest first.  The report of a run
is read off it: the operations that were computed, in the order in which they ran.
-/

namespace SoleRunner.Simulation

/-- A place in a program, and the OS thread that has come to it. -/
structure Step where
  osThread : ThreadId
  /-- The thread whose program it is. -/
  owner : ThreadId
  pc : Nat
deriving DecidableEq

/-- What an OS thread does at a place. -/
inductive Act where
  /-- It calls the capture guard. -/
  | arrived
  /-- It asks the policy, which names the thread to run next. -/
  | decided (next : ThreadId)
  /-- It computes the operation. -/
  | computed
  /-- It makes the system call. -/
  | syscalled
  /-- It ends. -/
  | ended
deriving DecidableEq

/-- What was done, oldest first. -/
abbrev History := Array (Step × Act)

/-- The outcome of a run. -/
structure Report where
  /-- The computed operations, oldest first. -/
  steps : List Step := []
  /-- The most operations ever computed at once. -/
  peak : Nat := 0
deriving DecidableEq, Inhabited

namespace Report

/-- The operations of `owner`, in the order in which they ran. -/
def computedBy (r : Report) (owner : ThreadId) : List Nat :=
  (r.steps.filter fun s => s.owner = owner).map Step.pc

/-- How many operations of `owner` another OS thread ran. -/
def computedElsewhere (r : Report) (owner : ThreadId) : Nat :=
  r.steps.countP fun s => s.owner = owner && s.osThread ≠ owner

end Report

namespace History

/-- The computed operations, oldest first. -/
def computed (h : History) : List Step :=
  h.toList.filterMap fun (s, act) => if act = .computed then some s else none

/-- The decisions, oldest first: the thread that ran, and the one to run next. -/
def decisions (h : History) : List (ThreadId × ThreadId) :=
  h.toList.filterMap fun (s, act) =>
    match act with
    | .decided next => some (s.owner, next)
    | _ => none

/-- The report of a history.  Each operation is computed within a turn, and so by itself. -/
def report (h : History) : Report :=
  let steps := h.computed
  { steps, peak := min steps.length 1 }

end History

end SoleRunner.Simulation
