/-!
# Lock — a value behind a lock

A lock guards one value, and at most one holder has it.  Whoever finds it held waits; so an attempt to
take it is answered at once only when it is free.
-/

namespace SoleRunner

/-- A lock around a value. -/
structure Lock (α : Type) where
  value : α
  held : Bool := false
deriving DecidableEq, Inhabited

namespace Lock

variable {α : Type}

/-- Takes the lock, if it is free. -/
def acquire? (l : Lock α) : Option (Lock α) := if l.held then none else some { l with held := true }

/-- Gives the lock back; says whether there was anything to give back. -/
def release (l : Lock α) : Bool × Lock α := (l.held, { l with held := false })

/-- The value, as its holder sees it. -/
def read? (l : Lock α) : Option α := if l.held then some l.value else none

/-- Replaces the value; only the holder can. -/
def write? (l : Lock α) (a : α) : Option (Lock α) :=
  if l.held then some { l with value := a } else none

/-- One holder's whole turn: take the lock, change the value, give the lock back. -/
def visit (l : Lock α) (f : α → α) : Option (Lock α) := do
  let l ← l.acquire?
  let a ← l.read?
  let l ← l.write? (f a)
  return l.release.2

end Lock

end SoleRunner
