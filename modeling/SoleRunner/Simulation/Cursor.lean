import SoleRunner.Context

/-!
# Simulation/Cursor — where a simulated thread stands in its program

The context of a simulated thread is its place in its own program and four registers.  Because a cursor
names its owner, any OS thread can go on with any thread's cursor.
-/

namespace SoleRunner

/-- The saved state of a simulated thread. -/
structure Cursor where
  /-- The thread whose program this is. -/
  owner : ThreadId
  /-- The index of the next operation. -/
  pc : Nat := 0
  /-- The switch hook before `pc` has run. -/
  hooked : Bool := false
  regs : Vector UInt64 4 := Vector.replicate 4 0
deriving DecidableEq

namespace Cursor

/-- The cursor at the start of `owner`'s program. -/
def start (owner : ThreadId) : Cursor := { owner }

/-- The value of a register; a slot that the cursor lacks reads as 0. -/
def reg (c : Cursor) (r : Register) : UInt64 := c.regs[r.slot.toNat]?.getD 0

/-- Writes a register; a slot that the cursor lacks is left alone. -/
def setReg (c : Cursor) (r : Register) (v : UInt64) : Cursor :=
  { c with regs := c.regs.setIfInBounds r.slot.toNat v }

instance : Context Cursor := ⟨reg, setReg⟩

/-- The cursor past the current operation. -/
def advance (c : Cursor) : Cursor := { c with pc := c.pc + 1, hooked := false }

end Cursor

end SoleRunner
