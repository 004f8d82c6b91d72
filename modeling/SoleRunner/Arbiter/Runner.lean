import SoleRunner.Arbiter.Critical

/-!
# Arbiter/Runner — replacing the runner, and sending an OS thread on its way

The steps that the handlers share: checking the scheduler's choice, taking the runner out of the captured
threads in favour of another (`replaceRunner`), and resuming a saved context, either the runner's as
executor (`resumeRunner`) or a thread's own, uninstrumented (`resumeOwn`).
-/

namespace SoleRunner.Arbiter

open Critical

variable {C σ : Type}

/-- A message that is logged only when hand-offs are to be logged. -/
def noteHandOff (arb : Arbiter C σ) (text : String) : Critical C σ Unit :=
  if arb.config.logHandOffs then note .debug text else pure ()

/-- Wakes `tid`, or the next wait of `tid` if it does not wait now. -/
def wake (arb : Arbiter C σ) (tid : ThreadId) : Critical C σ Unit := do
  arb.noteHandOff s!"waking thread {tid}"
  post tid

/-! ## Replacing the runner -/

/-- The thread that the scheduler chose must be in the table and idle. -/
def checkChoice (t : Table C) (next : ThreadId) : Except Fault Unit :=
  if !t.contains next then .error (.violation (.outOfRange next t.capacity))
  else
    match t.state next with
    | .error e => .error e
    | .ok .idle => .ok ()
    | .ok state => .error (.violation (.notIdle next state))

/-- Asks the scheduler who runs in place of the runner, whose saved context it may edit. -/
def askScheduler (arb : Arbiter C σ) : Critical C σ ThreadId := do
  let m ← get
  let context ← contextOf m.runner
  let (next, edited, s) := arb.scheduler.choose m.runner context m.schedulerState
  modifyContext m.runner fun _ => edited
  tell fun _ => s
  return next

/-- **The runner leaves the captured threads**, and the scheduler's choice runs instead. -/
def replaceRunner (arb : Arbiter C σ) : Critical C σ Unit := do
  let old := (← get).runner
  let next ← arb.askScheduler
  ofExcept (checkChoice (← get).table next)
  expect (0 < (← get).captured) .uncaptureHasCaptured
  setCaptured ((← get).captured - 1)
  moveState old .running .uncaptured
  setRunner next
  moveState next .idle .running
  tally fun s => { s with uncaptures := s.uncaptures + 1 }

/-! ## Resuming a saved context -/

variable [Context C]

/-- `c` with the marks of the executor that runs `tid`. -/
def stampExecutor (arb : Arbiter C σ) (tid : ThreadId) (c : C) : C :=
  Context.setReg (Context.setReg c arb.roleReg 1) arb.choiceReg tid.toReg

/-- `c` with the marks of a context that is not the executor's. -/
def stampPlain (arb : Arbiter C σ) (c : C) : C :=
  Context.setReg (Context.setReg c arb.roleReg 0) arb.choiceReg ThreadId.nobody.toReg

/-- Stamps the saved context of `tid`, and hands out a copy. -/
def resumeStamped (tid : ThreadId) (role : Role) (stamp : C → C) : Critical C σ (Resume C) := do
  modifyContext tid stamp
  return ⟨tid, role, ← contextOf tid⟩

/-- Resumes the runner's saved context as executor. -/
def resumeRunner (arb : Arbiter C σ) : Critical C σ (Resume C) := do
  let runner := (← get).runner
  expect (runner ≠ .nobody) .resumeHasRunner
  resumeStamped runner .executor (arb.stampExecutor runner)

/-- Resumes `tid`'s own saved context uninstrumented. -/
def resumeOwn (arb : Arbiter C σ) (tid : ThreadId) : Critical C σ (Resume C) :=
  resumeStamped tid .uncaptured arb.stampPlain

end SoleRunner.Arbiter
