/-!
# CodeUnit — a unit of code, and where the scheduler wants switch points in it

A unit is a list of operations.  For each unit the scheduler names the places where it wants to decide
who runs next; a `UnitTrace` collects them in the order of the requests.
-/

namespace SoleRunner

/-- The kind of one operation. -/
inductive OpKind where
  | plain
  /-- A call that may block. -/
  | syscall
deriving DecidableEq

/-- A unit of code: its entry address, for messages, and its operations. -/
structure CodeUnit where
  address : UInt64
  ops : List OpKind
deriving DecidableEq

namespace CodeUnit

def length (u : CodeUnit) : Nat := u.ops.length

def isEmpty (u : CodeUnit) : Bool := u.ops.isEmpty

/-- Operation `i` exists and is a system call. -/
def isSyscall (u : CodeUnit) (i : Nat) : Bool := u.ops[i]? == some .syscall

/-- The indices of the system calls, in increasing order. -/
def syscalls (u : CodeUnit) : List Nat := (List.range u.length).filter u.isSyscall

end CodeUnit

/-- Where a switch hook would run, relative to its operation. -/
inductive HookPoint where
  | before
  | after
  | takenBranch
deriving DecidableEq

/-- The point as it stands in messages. -/
def HookPoint.text : HookPoint → String
  | before => "Before"
  | after => "After"
  | takenBranch => "TakenBranch"

instance : ToString HookPoint := ⟨HookPoint.text⟩

/-- A switch point that the scheduler asks for. -/
structure Placement where
  index : Nat
  point : HookPoint
deriving DecidableEq

/-- The view of a unit that collects the scheduler's requests. -/
structure UnitTrace where
  length : Nat := 0
  /-- The unit starts with a system call, so a hook at operation 0 is dropped. -/
  startsWithSyscall : Bool := false
  placements : List Placement := []
deriving DecidableEq, Inhabited

namespace UnitTrace

/-- The view of `u` before any request. -/
def ofUnit (u : CodeUnit) : UnitTrace where
  length := u.length
  startsWithSyscall := u.isSyscall 0

def isEmpty (t : UnitTrace) : Bool := t.length == 0

/-- Asks for one more switch point. -/
def request (t : UnitTrace) (p : Placement) : UnitTrace :=
  { t with placements := t.placements ++ [p] }

/-- Asks for several switch points, in order. -/
def requestAll (t : UnitTrace) (ps : List Placement) : UnitTrace := ps.foldl request t

@[simp] theorem requestAll_nil (t : UnitTrace) : t.requestAll [] = t := rfl

@[simp] theorem requestAll_cons (t : UnitTrace) (p : Placement) (ps : List Placement) :
    t.requestAll (p :: ps) = (t.request p).requestAll ps := rfl

theorem requestAll_eq (t : UnitTrace) (ps : List Placement) :
    t.requestAll ps = { t with placements := t.placements ++ ps } := by
  induction ps generalizing t with
  | nil => simp
  | cons p ps ih => simp [ih, request]

end UnitTrace

end SoleRunner
