import SoleRunner.Config
import SoleRunner.Context
import SoleRunner.Log.Logger
import SoleRunner.Scheduler
import SoleRunner.Stats
import SoleRunner.Table

/-!
# Arbiter/Ledger — the arbiter, and what it keeps about the threads

The arbiter lets at most one thread of a program run controlled code.  Its fixed part is `Arbiter`; what
it keeps about the threads is its `Ledger`, guarded by one lock.  Two fields are also published
(`runnerHint`, `armedHint`), so that a substrate can look at them without the lock.
-/

namespace SoleRunner

/-- The fixed part of an arbiter: its settings, the two registers it claimed, and the scheduler. -/
structure Arbiter (C σ : Type) where
  config : Config
  /-- The register that is 1 in the executor's context and 0 in every other. -/
  roleReg : Register
  /-- The register that carries the thread to run next. -/
  choiceReg : Register
  scheduler : Scheduler C σ

/-- **What the arbiter keeps**, behind its lock. -/
structure Ledger (C σ : Type) where
  table : Table C
  /-- The thread whose code runs. -/
  runner : ThreadId := .nobody
  /-- The OS thread that runs it. -/
  executor : ThreadId := .nobody
  /-- How many threads are captured. -/
  captured : Nat := 0
  /-- The only captured thread went into a system call and kept the executor role, so its uncapture is
  still owed. -/
  owesUncapture : Bool := false
  /-- The next switch blocks the thread it leaves. -/
  armed : Bool := false
  /-- What readers without the lock see of `runner`. -/
  runnerHint : ThreadId := .nobody
  /-- What readers without the lock see of `armed`. -/
  armedHint : Bool := false
  /-- Whether each thread's wake slot holds a permit. -/
  permits : Array Bool
  stats : Stats := {}
  schedulerState : σ
  /-- What was logged, oldest first. -/
  log : Array Log.Entry := #[]

namespace Ledger

variable {C σ : Type}

/-- The ledger of `capacity` threads before anything happened. -/
def fresh (capacity : Nat) (s : σ) : Ledger C σ where
  table := .ofCapacity capacity
  permits := Array.replicate capacity false
  schedulerState := s

/-- The wake slot of `tid` holds a permit. -/
def hasPermit (m : Ledger C σ) (tid : ThreadId) : Bool := m.permits[tid.index]?.getD false

end Ledger

end SoleRunner
