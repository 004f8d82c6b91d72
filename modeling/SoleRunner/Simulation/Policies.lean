import SoleRunner.Scheduler.Journal
import SoleRunner.Scheduler.Rotation
import SoleRunner.Simulation.Machine

/-!
# Simulation/Policies — ways to decide at a switch hook

Taking turns, staying with the runner, following a script, and breaking down.
-/

namespace SoleRunner.Simulation.Policy

variable {σ π : Type}

/-- Takes turns: the policy is the rotation that is the scheduler's own state. -/
def rotate : Policy Rotation π := fun runner r p =>
  (some (r.rotate runner).1, (r.rotate runner).2, p)

/-- Never switches. -/
def stay : Policy σ π := fun runner s p => (some runner, s, p)

/-- Decides what the script says; without a line left it stays. -/
def follow : Policy σ (List ThreadId) := fun runner s script =>
  match script with
  | [] => (some runner, s, [])
  | next :: rest => (some next, s, rest)

/-- Breaks down at the first decision. -/
def breakDown : Policy σ π := fun _ s p => (none, s, p)

/-- The same policy, where the scheduler keeps a journal. -/
def journaled (policy : Policy σ π) : Policy (Journal Cursor σ) π := fun runner j p =>
  let (next, s, p') := policy runner j.state p
  (next, { j with state := s }, p')

end SoleRunner.Simulation.Policy
