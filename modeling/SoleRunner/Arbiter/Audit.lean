import SoleRunner.Arbiter.Ledger

/-!
# Arbiter/Audit — looking at an arbiter from outside

What a substrate may ask without the lock before it calls a handler, a copy of the ledger's fields at one
instant, and the run-time check of what must hold whenever the lock is free.
-/

namespace SoleRunner

/-! ## Without the lock -/

/-- An entry into controlled code goes through its guard in every context but the executor's. -/
def entryGuarded (role : UInt64) : Bool := role == 0

/-- A system call goes through its guard in the executor's context only. -/
def syscallGuarded (role : UInt64) : Bool := role != 0

namespace Ledger

variable {C σ : Type}

/-- A switch hook calls the arbiter when the decision names another thread, or when a block is armed. -/
def hookCalls (m : Ledger C σ) (next : ThreadId) : Bool := next != m.runnerHint || m.armedHint

/-! ## Between critical sections -/

/-- **The audit**: the captured count is right, and the one running thread is the runner exactly while
something is captured.  The first expectation that fails is reported. -/
def audit (m : Ledger C σ) : Except Fault Unit :=
  if m.captured ≠ m.table.capturedCount then .error (.broken .capturedCountMatches)
  else if m.captured = 0 then
    if m.table.threadsIn .running = [] then .ok () else .error (.broken .nobodyRunsUncaptured)
  else if m.table.threadsIn .running = [m.runner] then .ok ()
  else .error (.broken .runnerIsTheOneRunning)

/-- The audit, when nobody is on the way to the executor role: then there is an executor exactly while
something is captured. -/
def auditAtRest (m : Ledger C σ) : Except Fault Unit :=
  match m.audit with
  | .error e => .error e
  | .ok () =>
    if m.captured = 0 ↔ m.executor = .nobody then .ok ()
    else .error (.broken .executorIffCaptured)

end Ledger

/-- A copy of the ledger's fields at one instant. -/
structure Snapshot where
  states : List ThreadState
  runner : ThreadId
  executor : ThreadId
  captured : Nat
  owesUncapture : Bool
  armed : Bool
deriving DecidableEq

/-- The state of `tid`; nothing past the end of the table. -/
def Snapshot.state? (s : Snapshot) (tid : ThreadId) : Option ThreadState := s.states[tid.index]?

def Ledger.snapshot {C σ : Type} (m : Ledger C σ) : Snapshot where
  states := m.table.states
  runner := m.runner
  executor := m.executor
  captured := m.captured
  owesUncapture := m.owesUncapture
  armed := m.armed

end SoleRunner
