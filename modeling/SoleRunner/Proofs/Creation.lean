import SoleRunner.Arbiter.Setup
import SoleRunner.Proofs.Soundness
import SoleRunner.Scheduler.Journal
import SoleRunner.Scheduler.Rotation
import SoleRunner.Simulation.Cursor

/-!
# Proofs/Creation — what a new arbiter is

An arbiter that could be created has two different registers and a ledger on which nothing has happened
yet, with as many slots as its configuration asks for and no more than the limit.
-/

namespace SoleRunner

namespace Setup

variable {C σ α β : Type} {s s' : Setup C σ}

/-- A step that was made of two has gone through both. -/
theorem of_bind_ok {x : SetupStep C σ α} {f : α → SetupStep C σ β} {b : β}
    (h : (x >>= f) s = .ok b s') : ∃ a t, x s = .ok a t ∧ f a t = .ok b s' := by
  change EStateM.bind x f s = .ok b s' at h
  unfold EStateM.bind at h
  split at h
  next a t hx => exact ⟨a, t, hx, h⟩
  next => nomatch h

theorem bind_of_ok {x : SetupStep C σ α} {a : α} (h : x s = .ok a s') (f : α → SetupStep C σ β) :
    (x >>= f) s = f a s' := by
  change EStateM.bind x f s = f a s'
  simp only [EStateM.bind, h]

theorem bind_of_error {x : SetupStep C σ α} {e : Fault} (h : x s = .error e s')
    (f : α → SetupStep C σ β) : (x >>= f) s = .error e s' := by
  change EStateM.bind x f s = .error e s'
  simp only [EStateM.bind, h]

end Setup

namespace Arbiter

open Setup

variable {C σ : Type} {scheduler : Scheduler C σ} {initial : σ} {config : Config}
  {setup setup' : Setup C σ} {arb : Arbiter C σ} {m : Ledger C σ}

/-- **What a new arbiter is.** -/
theorem of_create_ok (h : create scheduler initial config setup = .ok (arb, m) setup') :
    config.problem? = none ∧ arb.scheduler = scheduler ∧ arb.roleReg ≠ arb.choiceReg ∧
      m = .fresh config.capacity initial := by
  unfold create at h
  cases hp : config.problem? with
  | some problem =>
    rw [hp] at h
    nomatch h
  | none =>
    simp only [hp] at h
    obtain ⟨roleReg, s₁, -, h⟩ := of_bind_ok h
    obtain ⟨choiceReg, s₂, -, h⟩ := of_bind_ok h
    split at h
    · obtain ⟨_, _, hthrow, -⟩ := of_bind_ok h
      nomatch hthrow
    next hne =>
    cases h
    exact ⟨rfl, rfl, hne, rfl⟩

/-- A new ledger is sound. -/
theorem sound_of_create (h : create scheduler initial config setup = .ok (arb, m) setup') :
    m.Sound := by
  obtain ⟨hp, -, -, rfl⟩ := of_create_ok h
  exact Ledger.sound_fresh ((config.problem?_eq_none_iff.mp hp).2) initial

/-- The arbiter of a rotation over two slots, with the first two registers of a substrate. -/
def twoSlots : Arbiter Cursor Rotation := ⟨{ capacity := 2 }, ⟨0⟩, ⟨1⟩, Rotation.scheduler⟩

/-- The same over three slots. -/
def threeSlots : Arbiter Cursor Rotation := { twoSlots with config := { capacity := 3 } }

/-- Two slots whose rotation writes its calls down. -/
def journaledSlots : Arbiter Cursor (Journal Cursor Rotation) :=
  ⟨twoSlots.config, twoSlots.roleReg, twoSlots.choiceReg, Rotation.scheduler.journaled⟩

theorem create_twoSlots : ∃ setup : Setup Cursor Rotation,
    create Rotation.scheduler {} { capacity := 2 } ⟨.simulated, #[]⟩ =
      .ok (twoSlots, .fresh 2 {}) setup :=
  ⟨_, rfl⟩

theorem create_threeSlots : ∃ setup : Setup Cursor Rotation,
    create Rotation.scheduler {} { capacity := 3 } ⟨.simulated, #[]⟩ =
      .ok (threeSlots, .fresh 3 {}) setup :=
  ⟨_, rfl⟩

theorem create_journaledSlots : ∃ setup : Setup Cursor (Journal Cursor Rotation),
    create Rotation.scheduler.journaled ⟨{}, []⟩ { capacity := 2 } ⟨.simulated, #[]⟩ =
      .ok (journaledSlots, .fresh 2 ⟨{}, []⟩) setup :=
  ⟨_, rfl⟩

end Arbiter

end SoleRunner
