import SoleRunner.Proofs.Debt
import SoleRunner.Proofs.Undisturbed

/-!
# Proofs/LoneRunner — when an executor cannot leave another thread's code

An executor that comes to a system call of another thread ships it, and goes on with a third one.  If the
runner is the only captured thread, there is no third one, and the departure finds the ledger in disorder.
The executor's own thread is inside the program all the time; so that is the state in which it is blocked,
and nobody is idle.  `departure_breaks_iff` says that no other departure of a thread that carries the mark
of an executor finds the ledger in disorder.
-/

namespace SoleRunner

namespace Ledger

variable {C σ : Type} {m : Ledger C σ} {tid : ThreadId}

/-- **A runner that another thread executes is alone** exactly if that thread is blocked, and nobody is
idle. -/
theorem Sound.lone_iff (hs : m.Sound) (he : m.executor = tid) (htid : tid ≠ .nobody)
    (hr : m.runner ≠ .nobody) : m.runner ≠ tid ∧ m.captured < 2 ↔
      m.table.state? tid = some .blocked ∧ ∀ u, m.table.state? u ≠ some .idle := by
  have hb := hs.balanced
  have hin : m.table.Inside tid := he ▸ hs.executor_inside (he ▸ htid)
  constructor
  · rintro ⟨hne, hlone⟩
    have hidle (u : ThreadId) : m.table.state? u ≠ some .idle := by
      intro hu
      exact Nat.not_lt.mpr (Nat.le_of_lt_succ hlone) (hb.one_lt_captured hu hr)
    refine ⟨Classical.byContradiction fun hfree => ?_, hidle⟩
    exact hidle tid (hb.idle_of_inside hin (Ne.symm hne) hfree)
  · rintro ⟨hblocked, hidle⟩
    refine ⟨?_, Nat.not_le.mp fun hn => ?_⟩
    · rintro rfl
      rw [hb.runner_running hr] at hblocked
      nomatch hblocked
    · obtain ⟨u, hu⟩ := hb.exists_idle hn
      exact hidle u hu

end Ledger

namespace Arbiter

variable {C σ : Type} [Context C] {arb : Arbiter C σ} {m : Ledger C σ} {tid : ThreadId} {c : C}

/-- The departure of an executor without debts breaks only over a lone runner that is not its own. -/
theorem depart_breaks_iff (arb : Arbiter C σ) (hb : m.table.Balanced m.captured m.runner)
    (he : m.executor = tid) (hr : m.runner ≠ .nobody) (ho : m.owesUncapture = false) :
    (Breaks (arb.depart tid c m) ↔ m.runner ≠ tid ∧ m.captured < 2) ∧
    ∀ check m', arb.depart tid c m = .error (.broken check) m' → check = .shippedWithOthers := by
  have hends : Departs arb tid c m (arb.depart tid c m) := depart_outcome hb
  generalize arb.depart tid c m = r at hends
  have orderly (hnot : ¬ Breaks r) (hfit : m.runner = tid ∨ 2 ≤ m.captured) :
      (Breaks r ↔ m.runner ≠ tid ∧ m.captured < 2) ∧
        ∀ check m', r = .error (.broken check) m' → check = .shippedWithOthers := by
    refine ⟨iff_of_false hnot fun h => ?_, fun check m' h => absurd ⟨check, m', h⟩ hnot⟩
    exact hfit.elim h.1 (Nat.not_le.mpr h.2)
  cases hends with
  | foreign hne => exact absurd he hne
  | leaderless _ hnone => exact absurd hnone hr
  | lone _ _ hne hn =>
    refine ⟨iff_of_true (breaks_broken _) ⟨hne, hn⟩, ?_⟩
    rintro check m' ⟨⟩
    rfl
  | refused _ _ hn => exact orderly (not_breaks_violation _) (.inr hn)
  | shipped _ _ _ hn => exact orderly (not_breaks_ok _) (.inr hn)
  | handedOver _ hown => exact orderly (not_breaks_ok _) (.inl hown)
  | owesAlready _ _ _ _ howes => exact absurd (ho.symm.trans howes) Bool.false_ne_true
  | owed _ hown => exact orderly (not_breaks_ok _) (.inl hown)

end Arbiter

namespace Crew

open Arbiter

variable {C σ : Type} [Context C] {arb : Arbiter C σ} {w : Crew C σ} {m : Ledger C σ} {tid : ThreadId}
  {c : C} {last : Option (Resume C)} {scheduler : Scheduler C σ} {initial : σ} {config : Config}
  {setup setup' : Setup C σ} {mvs : List (Move C σ)}

/-- **When the departure of an executor finds the ledger in disorder.**  In every state that a crew of a
new arbiter can reach, whatever was armed, blocked and unblocked meanwhile, the departure of the thread
that carries the mark of an executor breaks exactly if its own thread is blocked, and nobody is idle; and
the check that then fails is that others are captured beside the runner. -/
theorem departure_breaks_iff (h : create scheduler initial config setup = .ok (arb, m) setup')
    (hstore : Context.Stores C arb.roleReg) (hrun : (new m).run arb mvs = some w)
    (hp : w.place tid = .outside c last) (hc : Context.reg c arb.roleReg ≠ 0) :
    (Breaks (arb.depart tid c w.ledger) ↔
      w.ledger.table.state? tid = some .blocked ∧ ∀ u, w.ledger.table.state? u ≠ some .idle) ∧
    ∀ check n, arb.depart tid c w.ledger = .error (.broken check) n → check = .shippedWithOthers := by
  obtain ⟨hw, hmarked⟩ := marked_of_run h hstore hrun
  obtain ⟨he, hr, ho, -⟩ := hmarked.executor_of_mark hw hp hc
  obtain ⟨hbreaks, hcheck⟩ := arb.depart_breaks_iff (c := c) hw.sound.balanced he hr ho
  exact ⟨hbreaks.trans (hw.sound.lone_iff he (hw.ne_nobody_of_outside hp) hr), hcheck⟩

/-- The first of two threads switches to the second one, and is blocked: now it cannot leave the second
one's code. -/
theorem departure_breaks_block :
    ∃ (w : Crew Cursor Rotation) (c : Cursor) (last : Option (Resume Cursor)),
      (new (.fresh 2 {})).run twoSlots [.start ⟨0⟩ (.start ⟨0⟩), .arrive ⟨0⟩, .start ⟨1⟩ (.start ⟨1⟩),
        .arrive ⟨1⟩, .compute ⟨0⟩ (((Cursor.start ⟨0⟩).setReg ⟨0⟩ 1).setReg ⟨1⟩ (ThreadId.toReg ⟨1⟩)),
        .switch ⟨0⟩, .request (.block ⟨0⟩)] = some w ∧
      w.place ⟨0⟩ = .outside c last ∧ Context.reg c twoSlots.roleReg ≠ 0 ∧
      w.ledger.runner = ⟨1⟩ ∧ Breaks (twoSlots.depart ⟨0⟩ c w.ledger) := by
  obtain ⟨setup, h⟩ := create_twoSlots
  obtain ⟨w, c, last, hrun, hp, hc, hr, hblocked, hcaptured⟩ :
      ∃ (w : Crew Cursor Rotation) (c : Cursor) (last : Option (Resume Cursor)),
        (new (.fresh 2 {})).run twoSlots [.start ⟨0⟩ (.start ⟨0⟩), .arrive ⟨0⟩,
          .start ⟨1⟩ (.start ⟨1⟩), .arrive ⟨1⟩,
          .compute ⟨0⟩ (((Cursor.start ⟨0⟩).setReg ⟨0⟩ 1).setReg ⟨1⟩ (ThreadId.toReg ⟨1⟩)),
          .switch ⟨0⟩, .request (.block ⟨0⟩)] = some w ∧
        w.place ⟨0⟩ = .outside c last ∧ Context.reg c twoSlots.roleReg ≠ 0 ∧
        w.ledger.runner = ⟨1⟩ ∧ w.ledger.table.state? ⟨0⟩ = some .blocked ∧ w.ledger.captured = 1 :=
    ⟨_, _, _, rfl, rfl, by decide, rfl, rfl, rfl⟩
  have hstore : Context.Stores Cursor twoSlots.roleReg := Cursor.stores (by decide)
  obtain ⟨hbreaks, -⟩ := departure_breaks_iff h hstore hrun hp hc
  refine ⟨w, c, last, hrun, hp, hc, hr, hbreaks.mpr ⟨hblocked, fun u hidle => ?_⟩⟩
  have hb := (stationed_of_run h hrun).sound.balanced
  have hmany : 1 < w.ledger.captured := hb.one_lt_captured hidle (by rw [hr]; decide)
  rw [hcaptured] at hmany
  exact absurd hmany (by decide)

end Crew

end SoleRunner
