import SoleRunner.Arbiter.Runner

/-!
# Arbiter/Requests — what may be asked from outside the handlers

The scheduler's own code may arm a block, take an idle thread out of the pool and put it back, and read
and change the saved context of a thread that does not run.
-/

namespace SoleRunner.Arbiter

open Critical

variable {C σ α : Type}

/-- The runner that the next switch leaves becomes blocked instead of idle. -/
def armBlock : Critical C σ Unit := do
  if (← get).armed then throw (.violation .alreadyArmed)
  setArmed true

/-- `tid` must be in state `s` for the request. -/
def demandState (tid : ThreadId) (s : ThreadState) (request : Request) : Critical C σ Unit := do
  let state ← stateOf tid
  if state ≠ s then throw (.wrongState tid state request)

/-- Takes an idle thread out of the pool, unless no other thread would be left to run. -/
def block (arb : Arbiter C σ) (tid : ThreadId) : Critical C σ Unit := do
  demandState tid .idle .blockIdle
  if (← get).captured ≤ 1 then throw (.lastRunnable tid)
  setState tid .blocked
  setCaptured ((← get).captured - 1)
  tally fun s => { s with blocks := s.blocks + 1 }
  arb.noteHandOff s!"blocked idle thread {tid}"

/-- Puts a blocked thread back into the pool. -/
def unblock (arb : Arbiter C σ) (tid : ThreadId) : Critical C σ Unit := do
  demandState tid .blocked .unblock
  setState tid .idle
  setCaptured ((← get).captured + 1)
  tally fun s => { s with unblocks := s.unblocks + 1 }
  arb.noteHandOff s!"unblocked thread {tid}"

/-- Reads and changes the saved context of a thread that does not run. -/
def editContext (tid : ThreadId) (f : C → α × C) : Critical C σ α := do
  let state ← stateOf tid
  if !state.hasOpenContext then throw (.wrongState tid state .contextAccess)
  let (answer, edited) := f (← contextOf tid)
  modifyContext tid fun _ => edited
  return answer

/-- Reads a register of a saved context. -/
def readRegister [Context C] (tid : ThreadId) (r : Register) : Critical C σ UInt64 :=
  editContext tid fun c => (Context.reg c r, c)

/-- Writes a register of a saved context. -/
def writeRegister [Context C] (tid : ThreadId) (r : Register) (v : UInt64) : Critical C σ Unit :=
  editContext tid fun c => ((), Context.setReg c r v)

/-- A copy of a saved context. -/
def copyContext (tid : ThreadId) : Critical C σ C := editContext tid fun c => (c, c)

/-- Replaces a saved context. -/
def replaceContext (tid : ThreadId) (context : C) : Critical C σ Unit :=
  editContext tid fun _ => ((), context)

end SoleRunner.Arbiter
