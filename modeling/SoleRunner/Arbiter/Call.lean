import SoleRunner.Arbiter.Arrival
import SoleRunner.Arbiter.Departure
import SoleRunner.Arbiter.Lifecycle
import SoleRunner.Arbiter.Planning
import SoleRunner.Arbiter.Requests
import SoleRunner.Arbiter.Switch

/-!
# Arbiter/Call — every call one can make on an arbiter, as a value

A `Call` is a handler call of an OS thread or a request from outside; `perform` is its critical section,
and gives its `Reply`.  A handler call that fails must end the process, since going on would let two
threads run; a request that fails is just refused.
-/

namespace SoleRunner

/-- A call on an arbiter. -/
inductive Call (C : Type) where
  | start (tid : ThreadId) (context : C)
  | finish (tid : ThreadId)
  | arrive (tid : ThreadId) (context : C)
  | depart (tid : ThreadId) (context : C)
  | switch (tid : ThreadId) (context : C)
  | plan (u : CodeUnit)
  | armBlock
  | block (tid : ThreadId)
  | unblock (tid : ThreadId)
  | readRegister (tid : ThreadId) (r : Register)
  | writeRegister (tid : ThreadId) (r : Register) (v : UInt64)
  | copyContext (tid : ThreadId)
  | replaceContext (tid : ThreadId) (context : C)

/-- The answer to a call. -/
inductive Reply (C : Type) where
  | done
  /-- The new context of a thread that started. -/
  | started (context : C)
  | resumed (r : Resume C)
  /-- An arrival has to wait at its wake slot. -/
  | waiting
  | plan (p : Plan)
  | value (v : UInt64)
  | context (c : C)
deriving DecidableEq

/-- The reply that an arrival's standing gives. -/
def Arrival.reply {C : Type} : Arrival C → Reply C
  | resumed r => .resumed r
  | waiting => .waiting

/-- The calls whose failure ends the process. -/
def Call.isHandler {C : Type} : Call C → Bool
  | start .. | finish .. | arrive .. | depart .. | switch .. | plan .. => true
  | armBlock | block .. | unblock .. | readRegister .. | writeRegister .. | copyContext ..
  | replaceContext .. => false

/-- **The critical section of a call**; of an arrival it is the first. -/
def Arbiter.perform {C σ : Type} [Context C] (arb : Arbiter C σ) : Call C → Critical C σ (Reply C)
  | .start tid c => return .started (← arb.startThread tid c)
  | .finish tid => do arb.endThread tid; return .done
  | .arrive tid c => return (← arb.arrive tid c).reply
  | .depart tid c => return .resumed (← arb.depart tid c)
  | .switch tid c => return .resumed (← arb.switch tid c)
  | .plan u => return .plan (← arb.planUnit u)
  | .armBlock => do armBlock; return .done
  | .block tid => do arb.block tid; return .done
  | .unblock tid => do arb.unblock tid; return .done
  | .readRegister tid r => return .value (← readRegister tid r)
  | .writeRegister tid r v => do writeRegister tid r v; return .done
  | .copyContext tid => return .context (← copyContext tid)
  | .replaceContext tid c => do replaceContext tid c; return .done

end SoleRunner
