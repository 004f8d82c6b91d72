import SoleRunner.Scheduler

/-!
# Scheduler/Script — a scheduler that reads its answers off a list

Each time a thread must give up being captured, the script takes its oldest answer: the thread to run
next, and an edit of the context.  Without an answer left it names nobody.
-/

namespace SoleRunner

/-- The answers still to be given. -/
structure Script (C : Type) where
  /-- The switch points asked for in every unit. -/
  placements : List Placement := []
  answers : List (ThreadId × (C → C)) := []

namespace Script

variable {C : Type}

/-- The script as a scheduler. -/
def scheduler : Scheduler C (Script C) where
  switchPoints _ s := (s.placements, s)
  joined _ _ s := s
  choose _ c s :=
    match s.answers with
    | [] => (.nobody, c, s)
    | (tid, edit) :: rest => (tid, edit c, { s with answers := rest })

end Script

end SoleRunner
