import SoleRunner.Arbiter.Arrival
import SoleRunner.Arbiter.Audit
import SoleRunner.Arbiter.Departure
import SoleRunner.Arbiter.Lifecycle
import SoleRunner.Arbiter.Planning
import SoleRunner.Arbiter.Setup
import SoleRunner.Arbiter.Switch
import SoleRunner.Simulation.Cursor
import SoleRunner.Simulation.History
import SoleRunner.Simulation.Program
import SoleRunner.Substrate

/-!
# Simulation/Machine — simulated threads, one turn at a time

Each simulated thread runs its program on an OS thread of its own and calls the arbiter at the points
where an instrumented program would.  A thread stops before each such call until it is given a turn;
with the turn it makes the call and runs on to its next point, or until it sleeps in an arrival, or
ends.  So a run is a sequence of turns, and any order of turns is one way in which the threads may
interleave.
-/

namespace SoleRunner.Simulation

/-! ## Points and threads -/

/-- Where a thread waits for its turn. -/
inductive Point where
  | start
  | arrival
  | departure
  | switch
  | finish
  /-- Its arrival was woken, and is about to look again. -/
  | wake
deriving DecidableEq

/-- What a simulated OS thread is doing.  Between turns it waits, sleeps or is gone. -/
inductive Stage where
  /-- It waits for its turn. -/
  | due (p : Point)
  /-- It runs on by itself. -/
  | going
  /-- Its policy has named the thread to run next, and it is about to see whether that is a switch. -/
  | decided (next : ThreadId)
  /-- It sleeps in an arrival. -/
  | asleep
  /-- Its wait in an arrival has returned, and it is about to look again. -/
  | awake
  | ended
  /-- Its switch policy broke down, and the thread with it. -/
  | crashed
deriving DecidableEq

/-- A simulated OS thread: the cursor it goes on with, and what it is doing. -/
structure Worker where
  cursor : Cursor
  stage : Stage := .due .start
deriving DecidableEq

/-- A thread with cursor `c` after a critical section of its arrival: it goes on as it was told, or sleeps. -/
def Worker.ofArrival (c : Cursor) : Arrival Cursor → Worker
  | .resumed r => ⟨r.context, .going⟩
  | .waiting => ⟨c, .asleep⟩

/-- **A switch policy** decides at a switch hook who runs next, given the runner; the answer `none` is a
breakdown.  It shares the scheduler's state, and has a state of its own. -/
abbrev Policy (σ π : Type) := ThreadId → σ → π → Option ThreadId × σ × π

/-- Everything that stays fixed during a run. -/
structure Machine (σ π : Type) where
  arbiter : Arbiter Cursor σ
  policy : Policy σ π
  programs : Array Program
  plans : Array Plan
  /-- The register in which the substrate reads the executor's mark. -/
  roleReg : Register
  /-- The register in which the substrate writes a switch decision. -/
  choiceReg : Register

/-- Everything that changes during a run. -/
structure World (σ π : Type) where
  ledger : Ledger Cursor σ
  policyState : π
  workers : Array Worker
  history : History := #[]

/-- A step of the run: it may fail, and keeps what it changed before. -/
abbrev RunStep (σ π : Type) := EStateM Fault (World σ π)

variable {σ π α : Type}

/-- A critical section of the arbiter, as a step of the run. -/
def critical (x : Critical Cursor σ α) : RunStep σ π α := fun w =>
  match x w.ledger with
  | .ok a m => .ok a { w with ledger := m }
  | .error e m => .error e { w with ledger := m }

namespace World

/-- The world after OS thread `me` has done `act` at the place of cursor `c`. -/
def record (w : World σ π) (me : ThreadId) (c : Cursor) (act : Act) : World σ π :=
  { w with history := w.history.push (⟨me, c.owner, c.pc⟩, act) }

/-- The world with thread `i` as `worker`. -/
def withWorker (w : World σ π) (i : Nat) (worker : Worker) : World σ π :=
  { w with workers := w.workers.setIfInBounds i worker }

end World

namespace Machine

/-! ## Between two points -/

/-- The operations that a cursor has still to run. -/
def remaining (machine : Machine σ π) (c : Cursor) : Program :=
  (machine.programs[c.owner.index]?.getD []).drop c.pc

/-- A switch hook sits before the cursor's operation, and has not run yet. -/
def atHook (machine : Machine σ π) (c : Cursor) : Bool :=
  !c.hooked && (machine.plans[c.owner.index]?.any fun plan => plan.switchHooks.contains c.pc)

/-- The executor's mark in a cursor, as the substrate reads it. -/
def role (machine : Machine σ π) (c : Cursor) : UInt64 := c.reg machine.roleReg

/-- **At a switch hook** the policy is asked, and its decision is written into the choice register. -/
def decide (machine : Machine σ π) (me : ThreadId) (c : Cursor) (w : World σ π) :
    Option ThreadId × Cursor × World σ π :=
  let (answer, s, p) := machine.policy c.owner w.ledger.schedulerState w.policyState
  let w := { w with ledger := { w.ledger with schedulerState := s }, policyState := p }
  match answer with
  | none => (none, c, w)
  | some next =>
    (some next, { c.setReg machine.choiceReg next.toReg with hooked := true },
      w.record me c (.decided next))

/-- **An operation**, once no hook is due before it.  Without the executor's mark, computing goes through
the entry guard and a system call is made at once; with the mark, computing is done, and a system call
goes through the syscall guard. -/
def operate (machine : Machine σ π) (me : ThreadId) (op : Op) (c : Cursor) (w : World σ π) :
    Worker × World σ π :=
  match op with
  | .compute =>
    if entryGuarded (machine.role c) then (⟨{ c with hooked := true }, .due .arrival⟩, w)
    else (⟨c.advance, .going⟩, w.record me c .computed)
  | .syscall =>
    if syscallGuarded (machine.role c) then (⟨c, .due .departure⟩, w)
    else (⟨c.advance, .going⟩, w.record me c .syscalled)

/-- The thread once no operation is left: its exit counts as a system call. -/
def retire (machine : Machine σ π) (c : Cursor) : Worker :=
  ⟨c, .due (if syscallGuarded (machine.role c) then .departure else .finish)⟩

/-- No switch hook is due at a cursor: hooks are the executor's. -/
def unhooked (machine : Machine σ π) (c : Cursor) : Bool :=
  entryGuarded (machine.role c) || !machine.atHook c

/-- **OS thread `me` runs on** through operations `ops`, those that `c` has still to run, up to its next
point. -/
def advance (machine : Machine σ π) (me : ThreadId) :
    Program → Cursor → World σ π → Worker × World σ π
  | [], c, w => (machine.retire c, w)
  | op :: ops, c, w =>
    let act (c : Cursor) (w : World σ π) : Worker × World σ π :=
      match machine.operate me op c w with
      | (⟨c, .going⟩, w) => machine.advance me ops c w
      | stopped => stopped
    if machine.unhooked c then act c w
    else
      match machine.decide me c w with
      | (none, c, w) => (⟨c, .crashed⟩, w)
      | (some next, c, w) =>
        if w.ledger.hookCalls next then (⟨c, .due .switch⟩, w) else act c w

/-! ## One turn -/

/-- `me` makes the call of point `p`, and then goes on, sleeps, or has ended. -/
def call (machine : Machine σ π) (me : ThreadId) (c : Cursor) : Point → RunStep σ π Worker
  | .start => return ⟨← critical (machine.arbiter.startThread me c), .going⟩
  | .arrival => do
    modify fun w => w.record me c .arrived
    return .ofArrival c (← critical (machine.arbiter.arrive me c))
  | .wake => return .ofArrival c (← critical (machine.arbiter.await me))
  | .departure => return ⟨(← critical (machine.arbiter.depart me c)).context, .going⟩
  | .switch => return ⟨(← critical (machine.arbiter.switch me c)).context, .going⟩
  | .finish => do
    modify fun w => w.record me c .ended
    critical (machine.arbiter.endThread me)
    critical (Critical.note .debug s!"sim thread {me} exited")
    return ⟨c, .ended⟩

/-- A thread that goes on does so up to its next point. -/
def settle (machine : Machine σ π) (me : ThreadId) (worker : Worker) : RunStep σ π Worker :=
  if worker.stage = .going then
    modifyGet fun w => machine.advance me (machine.remaining worker.cursor) worker.cursor w
  else return worker

/-- `me` makes the call of point `p`, and goes on up to its next point.  An arrival that would sleep is
woken at once by a permit that is there already. -/
def pass (machine : Machine σ π) (me : ThreadId) (c : Cursor) (p : Point) : RunStep σ π Worker := do
  let worker ← machine.call me c p
  if p = .arrival ∧ worker.stage = .asleep then
    machine.settle me (← machine.call me worker.cursor .wake)
  else machine.settle me worker

end Machine

namespace World

/-- The point at which thread `i` waits for its turn, if it does.  A sleeping thread waits for its turn
once its wake slot holds a permit. -/
def pointOf (w : World σ π) (i : Nat) : Option Point :=
  match w.workers[i]? with
  | some ⟨_, .due p⟩ => some p
  | some ⟨_, .asleep⟩ => if w.ledger.hasPermit (.ofIndex i) then some .wake else none
  | _ => none

/-- The threads that wait for their turn, in increasing order. -/
def ready (w : World σ π) : List Nat :=
  (List.range w.workers.size).filter fun i => (w.pointOf i).isSome

/-- Thread `i` has neither ended nor crashed. -/
def isLeft (w : World σ π) (i : Nat) : Bool :=
  match w.workers[i]? with
  | some ⟨_, .ended⟩ | some ⟨_, .crashed⟩ => false
  | _ => true

/-- The threads that have neither ended nor crashed, in increasing order. -/
def left (w : World σ π) : List ThreadId :=
  ((List.range w.workers.size).filter w.isLeft).map ThreadId.ofIndex

/-- What the run reports once every thread is gone: a fault if one of them crashed. -/
def outcome (w : World σ π) : Except Fault Report :=
  if w.workers.any fun worker => worker.stage = .crashed then .error (.broken .threadsSurvive)
  else .ok w.history.report

end World

namespace Machine

/-- **One turn** of thread `i`; nothing happens unless it waits for one. -/
def turn (machine : Machine σ π) (i : Nat) : RunStep σ π Unit := do
  let w ← get
  match w.workers[i]?, w.pointOf i with
  | some worker, some p =>
    let worker ← machine.pass (.ofIndex i) worker.cursor p
    modify fun w => w.withWorker i worker
  | _, _ => pure ()

/-- How a run ended, with the turns that were given. -/
structure Trail (σ π : Type) where
  /-- The turns, each with the point at which it was given. -/
  turns : List (ThreadId × Point)
  /-- The fault of the last turn, if it failed. -/
  fault : Option Fault
  world : World σ π

/-- **A run of at most `n` turns**, which stops when nobody waits for one.  With `r` threads ready, a
pick `k` stands for the one at place `k` modulo `r`; without a pick left it is the first. -/
def run (machine : Machine σ π) : Nat → List Nat → World σ π → Trail σ π
  | 0, _, w => ⟨[], none, w⟩
  | n + 1, picks, w =>
    let ready := w.ready
    match ready[picks.headD 0 % ready.length]? with
    | none => ⟨[], none, w⟩
    | some i =>
      let given := (ThreadId.ofIndex i, (w.pointOf i).getD .start)
      match machine.turn i w with
      | .error e w => ⟨[given], some e, w⟩
      | .ok () w =>
        let rest := machine.run n picks.tail w
        { rest with turns := given :: rest.turns }

end Machine

/-! ## Setting up a run -/

/-- The world before the first turn: one OS thread per program, each at its start. -/
def World.initial (m : Ledger Cursor σ) (p : π) (threads : Nat) : World σ π where
  ledger := m
  policyState := p
  workers := ((List.range threads).map fun i => { cursor := .start (.ofIndex i) }).toArray

/-- The handlers and the registers of a substrate that is ready to run programs. -/
def wiring (s : Substrate (Arbiter Cursor σ)) :
    Except Fault (Arbiter Cursor σ × Register × Register) :=
  match s.handlers with
  | none => .error (.broken .substrateAttached)
  | some arb => s.markRegisters.map fun (roleReg, choiceReg) => (arb, roleReg, choiceReg)

/-- The plans of programs, numbered from `index`. -/
def planAll (arb : Arbiter Cursor σ) (index : Nat) : List Program → Critical Cursor σ (List Plan)
  | [] => return []
  | p :: ps => do
    let plan ← arb.planUnit (p.unit index)
    return plan :: (← planAll arb (index + 1) ps)

/-- **The machine that runs `programs`** on a wired substrate, once every program has its plan. -/
def load (wired : Arbiter Cursor σ × Register × Register) (policy : Policy σ π)
    (programs : List Program) : Critical Cursor σ (Machine σ π) := do
  let (arbiter, roleReg, choiceReg) := wired
  let plans ← planAll arbiter 0 programs
  return { arbiter, policy, programs := programs.toArray, plans := plans.toArray, roleReg, choiceReg }

/-- **A machine for `programs`, and its world before the first turn**: a new arbiter is attached to the
substrate of the simulation, and every program has its plan. -/
def boot (scheduler : Scheduler Cursor σ) (initial : σ) (config : Config) (policy : Policy σ π) (p : π)
    (programs : List Program) : Except Fault (Machine σ π × World σ π) :=
  match Arbiter.install scheduler initial config { substrate := .simulated } with
  | .error f _ => .error f
  | .ok (_, m) setup =>
    match wiring setup.substrate with
    | .error f => .error f
    | .ok wired =>
      match load wired policy programs m with
      | .error f _ => .error f
      | .ok machine m => .ok (machine, .initial m p programs.length)

/-- The turns that a run of `programs` takes at most: four for each thread, one for each computed
operation, and three for each system call. -/
def turnBound : List Program → Nat
  | [] => 0
  | p :: ps => 4 + p.count .compute + 3 * p.count .syscall + turnBound ps

end SoleRunner.Simulation
