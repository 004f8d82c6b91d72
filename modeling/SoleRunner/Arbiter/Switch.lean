import SoleRunner.Arbiter.Runner

/-!
# Arbiter/Switch — the executor goes on with another thread

The scheduler's decision stands in the choice register.  The executor keeps its role; the thread it ran
becomes idle, or blocked if a block was armed, and the thread of the decision runs.
-/

namespace SoleRunner.Arbiter

open Critical

variable {C σ : Type} [Context C]

/-- The thread that a context's choice register names. -/
def decision (arb : Arbiter C σ) (context : C) : ThreadId :=
  .ofReg (Context.reg context arb.choiceReg)

/-- A switch is refused unless the context is the executor's and the decision names another thread that
is idle. -/
def checkSwitch (arb : Arbiter C σ) (m : Ledger C σ) (tid : ThreadId) (context : C) :
    Except Fault Unit :=
  let next := arb.decision context
  if Context.reg context arb.roleReg ≠ 1 then
    .error (.violation (.notExecutor tid m.executor))
  else if m.armed ∧ next = m.runner then .error (.violation (.keptWhileArmed next))
  else if m.executor ≠ tid then .error (.broken .switchesAsExecutor)
  else if next = m.runner then .error (.broken .switchChangesThread)
  else checkChoice m.table next

/-- The runner is left: it becomes blocked if a block was armed, and idle otherwise. -/
def leaveRunner (old : ThreadId) : Critical C σ Unit := do
  if (← get).armed then
    moveState old .running .blocked
    expect (0 < (← get).captured) .blockedRunnerCounted
    setCaptured ((← get).captured - 1)
    setArmed false
    tally fun s => { s with blocks := s.blocks + 1 }
  else
    moveState old .running .idle

/-- **A switch**, in one critical section. -/
def switch (arb : Arbiter C σ) (tid : ThreadId) (context : C) : Critical C σ (Resume C) := do
  ofExcept (arb.checkSwitch (← get) tid context)
  let old := (← get).runner
  let next := arb.decision context
  storeContext old (arb.stampPlain context)
  leaveRunner old
  setRunner next
  moveState next .idle .running
  tally fun s => { s with switches := s.switches + 1 }
  note .trace s!"[{tid}] switch: {old} -> {next}"
  arb.resumeRunner

end SoleRunner.Arbiter
