import SoleRunner.Proofs.Stationed

/-!
# Proofs/HandOff — no hand-off is lost

A thread that is to go on is never left asleep, and no post goes to a thread that does not wait for it
(`no_handOff_lost`).
-/

namespace SoleRunner

namespace Crew

open Critical Arbiter

variable {C σ : Type} [Context C] {arb : Arbiter C σ} {w : Crew C σ} {m : Ledger C σ} {tid : ThreadId}
  {c : C}

/-! ## Posts

Only a departure posts permits, and only a wait takes one.  The permits themselves decide about waits
only, so that what a move posts is seen best when the slots hold something else. -/

/-- The crew with other permits in the wake slots. -/
def withPermits (w : Crew C σ) (permits : Array Bool) : Crew C σ :=
  { w with ledger := { w.ledger with permits } }

theorem permits_of_settles {n : Ledger C σ} {a : Arrival C} (ho : Settles arb tid n (.ok a m)) :
    m.permits = n.permits := by
  cases ho with
  | paid => simp
  | took => simp
  | waits => rfl

theorem permits_of_arrives {a : Arrival C} (ho : Arrives arb tid c w.ledger (.ok a m)) :
    m.permits = w.ledger.permits := by
  cases ho with
  | returned => simp
  | joined hu hset => exact (permits_of_settles hset).trans Ledger.entered_permits

theorem permits_of_looks {a : Arrival C} (ho : Looks arb tid w.ledger (.ok a m)) :
    m.permits = w.ledger.permits := by
  cases ho with
  | released => simp
  | took => simp
  | waits => rfl

/-- A wake slot that a departure fills belongs to a thread inside, which is not the executor. -/
theorem inside_of_departs {r : Resume C} {u : ThreadId} (hs : w.ledger.Sound)
    (ho : Departs arb tid c w.ledger (.ok r m)) (hp : m.hasPermit u) :
    w.ledger.hasPermit u ∨ w.ledger.table.Inside u ∧ u ≠ w.ledger.executor := by
  cases ho with
  | shipped he hr hne hn ha hnext hx =>
    obtain rfl | hp := Ledger.of_hasPermit_post (m := w.ledger) hp (by simp; rfl)
    · exact .inr ⟨hs.balanced.runner_inside hr, he ▸ hne⟩
    · exact .inl hp
  | @handedOver d next s log he hr htid hn ha hnext =>
    obtain rfl | hp := Ledger.of_hasPermit_post (m := w.ledger) hp (by simp; rfl)
    · have hother := hs.balanced.ne_runner_of_idle hnext
      exact .inr ⟨Table.inside_of_state hnext (by decide), he ▸ hr ▸ hother⟩
    · exact .inl hp
  | owed => exact .inl (Ledger.hasPermit_of_eq (by simp) hp)

/-- **A wake slot that a move fills belongs to a thread that waits.** -/
theorem Moves.waits_of_hasPermit {mv : Move C σ} {w' : Crew C σ} {u : ThreadId}
    (hs : w.ledger.Sound)
    (hw : ∀ u, w.ledger.table.Inside u → u ≠ w.ledger.executor → ∃ b, w.place u = .inside b)
    (hm : Moves arb w mv w') (hp : w'.ledger.hasPermit u) :
    w.ledger.hasPermit u ∨ ∃ b, w.place u = .inside b := by
  have hkept {n : Ledger C σ} (he : n.permits = w.ledger.permits) (hn : n.hasPermit u) :
      w.ledger.hasPermit u ∨ ∃ b, w.place u = .inside b := .inl (Ledger.hasPermit_of_eq he.symm hn)
  cases hm with
  | start hplace ho =>
    have ho := ho ▸ arb.startThread_outcome _ _ w.ledger
    cases ho
    exact hkept rfl hp
  | arrive hplace hg ho => exact hkept (permits_of_arrives (ho ▸ arrive_outcome hs.balanced)) hp
  | depart hplace hg ho =>
    exact (inside_of_departs hs (ho ▸ depart_outcome hs.balanced) hp).imp_right fun h => hw u h.1 h.2
  | switch hplace hg ho =>
    have ho : Switches arb _ _ w.ledger _ := ho ▸ switch_outcome hs.balanced
    cases ho
    exact hkept (by simp) hp
  | finish hplace hg ho =>
    have ho := ho ▸ arb.endThread_outcome _ w.ledger
    cases ho with
    | outside => exact hkept rfl hp
    | last => exact hkept rfl hp
  | compute => exact .inl hp
  | @wake tid hplace hpermit =>
    rcases eq_or_ne u tid with rfl | hu
    · exact .inr ⟨false, hplace⟩
    · rw [ledger_put, left_takePermit, Ledger.hasPermit_take_of_ne hu (Ledger.woken_permits ..)] at hp
      exact .inl hp
  | look hplace ho => exact hkept (permits_of_looks (ho ▸ lookAgain_outcome hs.balanced)) hp
  | plan => exact hkept (arb.keeps_planUnit _ w.ledger).permits_eq hp
  | request hc => exact hkept (arb.keeps_request hc w.ledger).permits_eq hp
  | edit => exact hkept (editContext_outcome _ _ w.ledger).keeps.permits_eq hp
  | think => exact .inl hp

/-! ## Runs -/

variable {scheduler : Scheduler C σ} {initial : σ} {config : Config} {setup setup' : Setup C σ}
  {mvs : List (Move C σ)}

/-- **No hand-off is lost.**  In every state that a crew of a new arbiter can reach: everybody inside
the program, but for the executor, waits; whatever the wake slots held, a move fills only the slot of a
thread that waits; and the runner while the role is vacant, as well as everybody who waits outside the
program, has a permit or is awake already. -/
theorem no_handOff_lost (h : create scheduler initial config setup = .ok (arb, m) setup')
    (hrun : (new m).run arb mvs = some w) :
    (∀ u, w.ledger.table.Inside u → u ≠ w.ledger.executor → ∃ b, w.place u = .inside b) ∧
    (∀ permits mv w' u, (w.withPermits permits).next arb mv = some w' → w'.ledger.hasPermit u →
      (w.withPermits permits).ledger.hasPermit u ∨ ∃ b, w.place u = .inside b) ∧
    (w.ledger.executor = .nobody → w.ledger.runner ≠ .nobody → w.Called w.ledger.runner) ∧
    ∀ u b, w.place u = .inside b → w.ledger.table.Outside u → w.Called u := by
  have hw := stationed_of_run h hrun
  refine ⟨hw.waits, fun permits mv w' u hmv => ?_, hw.runner_called, hw.released_called⟩
  have hs : (w.withPermits permits).ledger.Sound := hw.sound.withRest _ _ _ _ _
  exact (moves_of_next hmv).waits_of_hasPermit hs hw.waits

/-- The first of two threads makes a system call while the second one waits: the second is called. -/
theorem no_handOff_lost_rotation :
    ∃ w : Crew Cursor Rotation,
      (new (.fresh 2 {})).run twoSlots [.start ⟨0⟩ (.start ⟨0⟩), .arrive ⟨0⟩, .start ⟨1⟩ (.start ⟨1⟩),
        .arrive ⟨1⟩, .depart ⟨0⟩] = some w ∧
      w.ledger.executor = .nobody ∧ w.ledger.runner = ⟨1⟩ ∧ w.Called w.ledger.runner := by
  obtain ⟨setup, h⟩ := create_twoSlots
  obtain ⟨w, hrun, he, hr⟩ : ∃ w : Crew Cursor Rotation,
      (new (.fresh 2 {})).run twoSlots [.start ⟨0⟩ (.start ⟨0⟩), .arrive ⟨0⟩, .start ⟨1⟩ (.start ⟨1⟩),
        .arrive ⟨1⟩, .depart ⟨0⟩] = some w ∧
      w.ledger.executor = .nobody ∧ w.ledger.runner = ⟨1⟩ := ⟨_, rfl, rfl, rfl⟩
  obtain ⟨-, -, hcalled, -⟩ := no_handOff_lost h hrun
  exact ⟨w, hrun, he, hr, hcalled he (hr ▸ by decide)⟩

end Crew

end SoleRunner
