import SoleRunner.Arbiter.Call

/-!
# Host — the OS threads around an arbiter

Each OS thread of a program holds a live context and calls the arbiter with it; what a handler resumes
becomes the caller's live context.  An arrival that has to wait stays with the host.  It is ready to go
on once its wake slot holds a permit, and then takes the permit and looks again (`rejoin`).
-/

namespace SoleRunner

/-- An arbiter's ledger and the OS threads around it. -/
structure Host (C σ : Type) where
  ledger : Ledger C σ
  /-- The live context of each OS thread. -/
  contexts : ThreadId → C
  /-- The threads whose arrival waits, in increasing order. -/
  waiting : List ThreadId := []

/-- A step of the host: it may fail, and keeps what it changed before. -/
abbrev HostStep (C σ : Type) := EStateM Fault (Host C σ)

namespace Host

variable {C σ α : Type}

/-- A critical section of the arbiter, as a step of the host. -/
def critical (x : Critical C σ α) : HostStep C σ α := fun h =>
  match x h.ledger with
  | .ok a m => .ok a { h with ledger := m }
  | .error e m => .error e { h with ledger := m }

/-- The host with live context `c` for `tid`. -/
def withLive (h : Host C σ) (tid : ThreadId) (c : C) : Host C σ :=
  { h with contexts := fun t => if t = tid then c else h.contexts t }

/-- `tid` in its place in an increasing list, once. -/
def insertThread (tid : ThreadId) : List ThreadId → List ThreadId
  | [] => [tid]
  | t :: rest =>
    if tid.raw < t.raw then tid :: t :: rest
    else if tid = t then t :: rest
    else t :: insertThread tid rest

/-- The threads whose wait can return, in increasing order. -/
def ready (h : Host C σ) : List ThreadId := h.waiting.filter h.ledger.hasPermit

/-- What an answer means for the thread that gets it: a context to go on with, or a wait. -/
def settle (tid : ThreadId) : Reply C → HostStep C σ Unit
  | .resumed r => modify fun h => h.withLive tid r.context
  | .started c => modify fun h => h.withLive tid c
  | .waiting => modify fun h => { h with waiting := insertThread tid h.waiting }
  | .done | .plan _ | .value _ | .context _ => pure ()

/-- The thread that makes a call; nobody makes a request from outside. -/
def caller : Call C → ThreadId
  | .start tid _ | .finish tid | .arrive tid _ | .depart tid _ | .switch tid _ => tid
  | _ => .nobody

variable [Context C]

/-- The answer of a call.  An arrival runs until it is over or sleeps at its wake slot. -/
def answer (arb : Arbiter C σ) : Call C → HostStep C σ (Reply C)
  | .arrive tid c => do return (← critical (arb.enter tid c)).reply
  | c => critical (arb.perform c)

/-- **A thread makes a call**; if the call succeeds, the thread goes on as the answer says. -/
def call (arb : Arbiter C σ) (c : Call C) : HostStep C σ (Reply C) := do
  let reply ← answer arb c
  settle (caller c) reply
  return reply

/-- **A waiting arrival goes on**: it takes its permit and looks again, until it is over or sleeps. -/
def rejoin (arb : Arbiter C σ) (tid : ThreadId) : HostStep C σ (Reply C) := do
  modify fun h => { h with waiting := h.waiting.filter (· ≠ tid) }
  let reply := (← critical (arb.await tid)).reply
  settle tid reply
  return reply

end Host

end SoleRunner
