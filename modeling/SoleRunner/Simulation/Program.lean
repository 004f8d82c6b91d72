import SoleRunner.CodeUnit
import SoleRunner.ThreadId

/-!
# Simulation/Program — simulated programs

A program is a list of operations: it computes, under the arbiter's control, or makes a system call on
its owner's OS thread.
-/

namespace SoleRunner

/-- One operation of a simulated program. -/
inductive Op where
  /-- Controlled code, which only the executor runs. -/
  | compute
  /-- A blocking call, made by the owner's OS thread. -/
  | syscall
deriving DecidableEq

/-- What the arbiter is told about an operation. -/
def Op.kind : Op → OpKind
  | compute => .plain
  | syscall => .syscall

/-- The operations of one simulated thread. -/
abbrev Program := List Op

/-- The unit that is program `index`. -/
def Program.unit (index : Nat) (p : Program) : CodeUnit := ⟨index.toUInt64, p.map Op.kind⟩

end SoleRunner
