import SoleRunner.Scheduler

/-!
# Scheduler/Rotation — taking turns

The rotation keeps the threads that wait to run in a queue.  A newcomer joins at the back, a thread that
leaves hands over to the front, and a switch sends the runner to the back.  Every operation that is not
a system call gets a switch point before it.
-/

namespace SoleRunner

/-- The threads that wait for their turn, front first. -/
structure Rotation where
  ready : List ThreadId := []
deriving DecidableEq, Inhabited

namespace Rotation

/-- A captured thread joins, unless it is the first: that one runs at once. -/
def join (r : Rotation) (tid : ThreadId) (isFirst : Bool) : Rotation :=
  if isFirst then r else ⟨r.ready ++ [tid]⟩

/-- The front of the queue leaves it, to run. -/
def pop (r : Rotation) : ThreadId × Rotation :=
  match r.ready with
  | [] => (.nobody, r)
  | tid :: rest => (tid, ⟨rest⟩)

/-- **One turn of the rotation**: the front runs and `runner` goes to the back; alone, `runner` stays. -/
def rotate (r : Rotation) (runner : ThreadId) : ThreadId × Rotation :=
  match r.ready with
  | [] => (runner, r)
  | tid :: rest => (tid, ⟨rest ++ [runner]⟩)

/-- The switch points the rotation asks for: before each operation that is not a system call. -/
def placements (u : CodeUnit) : List Placement :=
  ((List.range u.length).filter fun i => !u.isSyscall i).map fun i => ⟨i, .before⟩

/-- The rotation as a scheduler that wants the switch points that `asked` lists.  It leaves every context
as it is. -/
def placing {C : Type} (asked : CodeUnit → List Placement) : Scheduler C Rotation where
  switchPoints u r := (asked u, r)
  joined tid isFirst r := r.join tid isFirst
  choose _ c r := (r.pop.1, c, r.pop.2)

/-- The rotation as a scheduler. -/
def scheduler {C : Type} : Scheduler C Rotation := placing placements

end Rotation

end SoleRunner
