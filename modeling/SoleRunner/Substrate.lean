import SoleRunner.Context
import SoleRunner.Fault

/-!
# Substrate — registers to claim, and one place for handlers

The substrate that instruments a program hands out register slots, each request taking the next of its
supply, and keeps the handlers it was given.  It takes handlers once: a second attempt to attach is
refused and changes nothing.
-/

namespace SoleRunner

/-- A substrate whose handlers are of type `H`. -/
structure Substrate (H : Type) where
  /-- The registers it can still hand out, in order. -/
  supply : List Register
  /-- The registers it handed out, in order. -/
  claimed : List Register := []
  handlers : Option H := none

namespace Substrate

variable {H : Type}

/-- The substrate of the simulation: four registers, nothing attached. -/
def simulated : Substrate H where
  supply := [⟨0⟩, ⟨1⟩, ⟨2⟩, ⟨3⟩]

/-- Claims the next register of the supply. -/
def claim (s : Substrate H) : Except Fault (Register × Substrate H) :=
  match s.supply with
  | [] => .error .registersExhausted
  | r :: rest => .ok (r, { s with supply := rest, claimed := s.claimed ++ [r] })

/-- Attaches handlers, if there are none yet. -/
def attach (s : Substrate H) (handlers : H) : Except Fault (Substrate H) :=
  match s.handlers with
  | none => .ok { s with handlers := some handlers }
  | some _ => .error .alreadyInitialized

/-- The role and the choice register, which are the first two claimed. -/
def markRegisters (s : Substrate H) : Except Fault (Register × Register) :=
  match s.claimed with
  | roleReg :: choiceReg :: _ => .ok (roleReg, choiceReg)
  | _ => .error (.broken .registersClaimed)

end Substrate

end SoleRunner
