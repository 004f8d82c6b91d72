/-!
# ThreadState — where a thread stands between the program and the arbiter

A thread outside our control is `uncaptured`.  A captured thread is `idle` or `running`, and at most
one is `running`.  A `blocked` thread is inside the program too, but the scheduler has taken it out of
the pool it chooses from.
-/

namespace SoleRunner

/-- The capture state of a virtual thread. -/
inductive ThreadState where
  /-- Outside our control: in a system call, or not yet entered. -/
  | uncaptured
  /-- In the program, but not to be chosen. -/
  | blocked
  /-- Captured, and free to be chosen. -/
  | idle
  /-- The one thread whose code runs. -/
  | running
deriving DecidableEq, Inhabited

namespace ThreadState

/-- Counted among the captured threads. -/
def isCaptured : ThreadState → Bool
  | idle | running => true
  | uncaptured | blocked => false

/-- The saved context may be read and changed from outside. -/
def hasOpenContext : ThreadState → Bool
  | idle | blocked => true
  | uncaptured | running => false

/-- The number a state is stored as. -/
def code : ThreadState → UInt8
  | uncaptured => 0
  | blocked => 1
  | idle => 2
  | running => 3

/-- The state stored as `n`; a number that stands for no state reads as `uncaptured`. -/
def ofCode (n : UInt8) : ThreadState :=
  if n = 1 then blocked else if n = 2 then idle else if n = 3 then running else uncaptured

theorem ofCode_code (s : ThreadState) : ofCode s.code = s := by cases s <;> rfl

/-- The state as it stands in messages. -/
def text : ThreadState → String
  | uncaptured => "UNCAPTURED"
  | blocked => "BLOCKED"
  | idle => "IDLE"
  | running => "RUNNING"

instance : ToString ThreadState := ⟨text⟩

/-- The state as it stands inside an inspected value. -/
def inspect : ThreadState → String
  | uncaptured => "Uncaptured"
  | blocked => "Blocked"
  | idle => "Idle"
  | running => "Running"

end ThreadState

end SoleRunner
