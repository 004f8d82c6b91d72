import SoleRunner.CodeUnit
import SoleRunner.ThreadId

/-!
# Scheduler — the policy that is asked who runs next

A scheduler is a record of callbacks over a state of its own.  The arbiter calls them inside its
critical sections, and trusts no answer: what a callback returns is checked before it is used.
-/

namespace SoleRunner

/-- **A scheduler** for contexts `C`, with state `σ`.  The last two callbacks must be given; the others
default to doing nothing. -/
structure Scheduler (C σ : Type) where
  /-- A unit was found; the answer asks for switch points in it. -/
  switchPoints : CodeUnit → σ → List Placement × σ := fun _ s => ([], s)
  /-- A thread came into existence. -/
  started : ThreadId → σ → σ := fun _ s => s
  /-- A thread exited. -/
  ended : ThreadId → σ → σ := fun _ s => s
  /-- A thread became captured; the flag says that no other is. -/
  joined : ThreadId → Bool → σ → σ
  /-- A thread must give up being captured.  The answer names the thread to run next, and gives the
  context that the first one goes on with. -/
  choose : ThreadId → C → σ → ThreadId × C × σ

end SoleRunner
