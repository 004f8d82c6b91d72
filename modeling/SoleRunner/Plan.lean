import SoleRunner.Fault

/-!
# Plan — the guards a unit of code gets

A unit gets a guard at its entry, a guard before every system call, and a switch hook before every
operation where the scheduler asked for one.  A unit that starts with a system call needs neither the
entry guard nor a hook there: its first syscall guard is entry enough.
-/

namespace SoleRunner

/-- The guards of one unit. -/
structure Plan where
  entryGuard : Bool
  /-- A guard before each of these system calls, in increasing order. -/
  syscallGuards : List Nat
  /-- A switch hook before each of these operations, in increasing order. -/
  switchHooks : List Nat
deriving DecidableEq

namespace Plan

/-- `i` in its place in an increasing list, once. -/
def insertIndex (i : Nat) : List Nat → List Nat
  | [] => [i]
  | j :: js => if i < j then i :: j :: js else if i = j then j :: js else j :: insertIndex i js

/-- A requested switch point is refused unless it is before an operation of the unit. -/
def checkPlacement (length : Nat) (p : Placement) : Except Fault Unit :=
  if p.point ≠ .before then .error (.violation (.unsupportedPlacement p.point))
  else if length ≤ p.index then .error (.violation (.placementOutOfRange p.index length))
  else .ok ()

/-- The operations with a switch hook, if every request is good; the first bad one is reported. -/
def hooksOf (length : Nat) (startsWithSyscall : Bool) : List Placement → Except Fault (List Nat)
  | [] => .ok []
  | p :: ps =>
    match checkPlacement length p with
    | .error e => .error e
    | .ok () =>
      match hooksOf length startsWithSyscall ps with
      | .error e => .error e
      | .ok hooks =>
        .ok (if p.index = 0 && startsWithSyscall then hooks else insertIndex p.index hooks)

/-- **The plan of a unit** for the requests that its trace collected. -/
def ofTrace (u : CodeUnit) (t : UnitTrace) : Except Fault Plan :=
  (hooksOf u.length t.startsWithSyscall t.placements).map fun hooks =>
    { entryGuard := !u.isEmpty && !u.isSyscall 0
      syscallGuards := u.syscalls
      switchHooks := hooks }

/-- The plan in words. -/
def summary (p : Plan) (u : CodeUnit) : String :=
  "unit 0x" ++ Text.hex u.address.toNat ++ ": " ++ toString u.length ++ " ops, " ++
    toString p.syscallGuards.length ++ " syscall guards, " ++
    toString p.switchHooks.length ++ " switch hooks"

end Plan

end SoleRunner
