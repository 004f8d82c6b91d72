import SoleRunner.Simulation.Machine

/-!
# Simulation/Beat — simulated threads, one beat at a time

A turn takes a thread from one call of the arbiter to its next one, without interruption.  In a beat it
does less: it makes one call, or its wait returns, or it goes through its loop once, or it looks whether
a decision calls for a switch.  Any order of beats is one way in which the threads may interleave, and a
turn is a row of beats of one thread.
-/

namespace SoleRunner.Simulation

variable {σ π : Type}

namespace Machine

/-- **One round** of a thread that goes on: the end of its program, a decision at a hook, or an
operation. -/
def round (machine : Machine σ π) (me : ThreadId) (c : Cursor) (w : World σ π) : Worker × World σ π :=
  match machine.remaining c with
  | [] => (machine.retire c, w)
  | op :: _ =>
    if machine.unhooked c then machine.operate me op c w
    else
      match machine.decide me c w with
      | (none, c, w) => (⟨c, .crashed⟩, w)
      | (some next, c, w) => (⟨c, .decided next⟩, w)

/-- What OS thread `me` does in a beat.  One that sleeps without a permit sleeps on, and one that is gone
does nothing. -/
def act (machine : Machine σ π) (me : ThreadId) : Worker → RunStep σ π Worker
  | ⟨c, .due p⟩ => machine.call me c p
  | ⟨c, .going⟩ => modifyGet (machine.round me c)
  | ⟨c, .decided next⟩ =>
    return ⟨c, if (← get).ledger.hookCalls next then .due .switch else .going⟩
  | ⟨c, .asleep⟩ => return ⟨c, if ← critical (Critical.takePermit me) then .awake else .asleep⟩
  | ⟨c, .awake⟩ => return .ofArrival c (← critical (machine.arbiter.lookAgain me))
  | ⟨c, .ended⟩ => return ⟨c, .ended⟩
  | ⟨c, .crashed⟩ => return ⟨c, .crashed⟩

/-- **One beat** of thread `i`, if there is one. -/
def beat (machine : Machine σ π) (i : Nat) : RunStep σ π Unit := do
  match (← get).workers[i]? with
  | some worker =>
    let worker ← machine.act (.ofIndex i) worker
    modify fun w => w.withWorker i worker
  | none => pure ()

/-- The beats of the threads of a list, one after another. -/
def beats (machine : Machine σ π) : List Nat → RunStep σ π Unit
  | [] => pure ()
  | i :: is => do
    machine.beat i
    machine.beats is

end Machine

end SoleRunner.Simulation
