import SoleRunner.Arbiter.Ledger
import SoleRunner.Substrate

/-!
# Arbiter/Setup — building an arbiter on a substrate

An arbiter is built from a valid configuration and two registers of the substrate, and then attached to
it.  What a failing attempt has claimed stays claimed, and what it has logged stays logged.
-/

namespace SoleRunner

/-- What setting up an arbiter works on: the substrate, and the log so far. -/
structure Setup (C σ : Type) where
  substrate : Substrate (Arbiter C σ)
  log : Array Log.Entry := #[]

/-- A step of setting up: it may fail, and keeps what it changed before. -/
abbrev SetupStep (C σ : Type) := EStateM Fault (Setup C σ)

namespace Setup

variable {C σ : Type}

/-- Adds to the log. -/
def write (entries : List Log.Entry) : SetupStep C σ Unit :=
  modify fun s => { s with log := s.log ++ entries }

/-- Claims a register of the substrate. -/
def claim : SetupStep C σ Register := do
  let (r, substrate) ← ofExcept (← get).substrate.claim
  modify fun s => { s with substrate }
  return r

/-- Attaches an arbiter to the substrate. -/
def attach (arb : Arbiter C σ) : SetupStep C σ Unit := do
  let substrate ← ofExcept ((← get).substrate.attach arb)
  modify fun s => { s with substrate }

end Setup

namespace Arbiter

open Setup

variable {C σ : Type}

/-- **A new arbiter**: every thread uncaptured, every wake slot empty, and two registers claimed. -/
def create (scheduler : Scheduler C σ) (initial : σ) (config : Config) :
    SetupStep C σ (Arbiter C σ × Ledger C σ) := do
  if let some problem := config.problem? then throw (.invalidConfig problem)
  let roleReg ← claim
  let choiceReg ← claim
  if roleReg = choiceReg then throw (.broken .registersDiffer)
  let capacity := config.capacity
  let (role, choice) := (roleReg.slot.toNat, choiceReg.slot.toNat)
  write [.message .info
    s!"arbiter up: {capacity} thread slots, executor reg {role}, switch reg {choice}"]
  return ({ config, roleReg, choiceReg, scheduler }, .fresh capacity initial)

/-- A new arbiter, attached to the substrate. -/
def install (scheduler : Scheduler C σ) (initial : σ) (config : Config) :
    SetupStep C σ (Arbiter C σ × Ledger C σ) := do
  let (arb, m) ← create scheduler initial config
  attach arb
  return (arb, m)

/-- A new attached arbiter, whose configuration is printed first when hand-offs are to be logged. -/
def launch (scheduler : Scheduler C σ) (initial : σ) (config : Config) :
    SetupStep C σ (Arbiter C σ × Ledger C σ) := do
  if config.logHandOffs then write (config.lines.map .line)
  install scheduler initial config

end Arbiter

end SoleRunner
