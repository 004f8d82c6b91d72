import SoleRunner.Arbiter.Critical
import SoleRunner.Plan

/-!
# Arbiter/Planning — the plan of a newly found unit

The scheduler is asked where it wants to decide, inside the lock; the plan is made from its requests.
-/

namespace SoleRunner.Arbiter

open Critical

variable {C σ : Type}

/-- **Plans the guards of a unit.**  The unit counts as found even if a request is refused. -/
def planUnit (arb : Arbiter C σ) (u : CodeUnit) : Critical C σ Plan := do
  let (asked, s) := arb.scheduler.switchPoints u (← get).schedulerState
  tell fun _ => s
  tally fun s => { s with units := s.units + 1 }
  let plan ← ofExcept (Plan.ofTrace u ((UnitTrace.ofUnit u).requestAll asked))
  note .trace (plan.summary u)
  return plan

end SoleRunner.Arbiter
