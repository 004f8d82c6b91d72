import SoleRunner.Proofs.AnyRun

/-!
# Proofs/Vacancy — who may act as the executor while nobody is

A departure or a switch is accepted if the executor is the thread that makes it.  While the role is
vacant, that refuses every thread, and leaves the ledger as it was; but it does not refuse a call in the
name of nobody, who then equals the executor.  `acts_as_executor` says exactly when such a call goes
through.
-/

namespace SoleRunner

namespace Arbiter

open Critical

variable {C σ : Type} [Context C] {arb : Arbiter C σ} {m n : Ledger C σ} {tid : ThreadId} {c : C}

/-- Whoever is not the executor does not switch. -/
theorem switch_of_foreign (hb : m.table.Balanced m.captured m.runner) (he : m.executor ≠ tid) :
    ∃ e, arb.switch tid c m = .error e m := by
  have ho : Switches arb tid c m (arb.switch tid c m) := switch_outcome hb
  generalize arb.switch tid c m = r at ho
  cases ho with
  | refused => exact ⟨_, rfl⟩
  | leaderless hcheck => exact absurd (of_checkSwitch hcheck).2.1 he
  | switched hcheck => exact absurd (of_checkSwitch hcheck).2.1 he

/-! ## Nobody, while nobody is the executor -/

/-- A departure in the name of nobody, which is nobody's own. -/
theorem depart_nobody_ok_iff (hb : m.table.Balanced m.captured m.runner) (he : m.executor = .nobody) :
    (∃ r m', arb.depart .nobody c m = .ok r m') ↔ m.runner ≠ .nobody ∧ 2 ≤ m.captured ∧
      m.table.state? (arb.scheduler.choose m.runner c m.schedulerState).1 = some .idle := by
  rw [depart_ok_iff hb, and_iff_right he]
  refine and_congr_right fun hr => or_iff_left fun hown => ?_
  exact hr hown.2.1

theorem switch_nobody_ok_iff (hb : m.table.Balanced m.captured m.runner) (he : m.executor = .nobody) :
    (∃ r m', arb.switch .nobody c m = .ok r m') ↔ Context.reg c arb.roleReg = 1 ∧
      m.runner ≠ .nobody ∧ arb.decision c ≠ m.runner ∧
      m.table.state? (arb.decision c) = some .idle := by
  rw [switch_ok_iff hb, and_iff_right he]

/-! ## Every ledger -/

variable {scheduler : Scheduler C σ} {initial : σ} {config : Config} {setup setup' : Setup C σ}
  {es : List (Event C σ)}

/-- **Whoever departs or switches is the executor, or nobody is.**  In every ledger `n` that a new arbiter
can come to, a departure and a switch go through only if the executor has the caller's name.  While the
role is vacant, those of a thread fail and change nothing.  In the name of nobody a departure then goes
through exactly if two threads are captured, one of them runs, and the scheduler's choice may run instead;
and a switch exactly if the context has the mark of an executor and decides for another, idle thread. -/
theorem acts_as_executor (h : create scheduler initial config setup = .ok (arb, m) setup')
    (hn : arb.follow m es = n) (tid : ThreadId) (c : C) :
    ((∃ r n', arb.depart tid c n = .ok r n') → n.executor = tid) ∧
    ((∃ r n', arb.switch tid c n = .ok r n') → n.executor = tid) ∧
    (n.executor = .nobody →
      (tid ≠ .nobody →
        (∃ e, arb.depart tid c n = .error e n) ∧ ∃ e, arb.switch tid c n = .error e n) ∧
      ((∃ r n', arb.depart .nobody c n = .ok r n') ↔ n.runner ≠ .nobody ∧ 2 ≤ n.captured ∧
        n.table.state? (arb.scheduler.choose n.runner c n.schedulerState).1 = some .idle) ∧
      ((∃ r n', arb.switch .nobody c n = .ok r n') ↔ Context.reg c arb.roleReg = 1 ∧
        n.runner ≠ .nobody ∧ arb.decision c ≠ n.runner ∧
        n.table.state? (arb.decision c) = some .idle)) := by
  have hb : n.table.Balanced n.captured n.runner := by
    rw [← hn]
    exact (arb.sound_foldl es (sound_of_create h)).balanced
  refine ⟨fun hok => ((depart_ok_iff hb).mp hok).1, fun hok => ((switch_ok_iff hb).mp hok).2.1, ?_⟩
  intro he
  refine ⟨fun htid => ?_, depart_nobody_ok_iff hb he, switch_nobody_ok_iff hb he⟩
  have hforeign : n.executor ≠ tid := he ▸ htid.symm
  exact ⟨⟨_, depart_of_foreign hforeign⟩, switch_of_foreign hb hforeign⟩

/-- Three threads arrive and the first one departs: before the second one has looked, nobody departs in
its place. -/
theorem acts_as_executor_nobody :
    ∃ n : Ledger Cursor Rotation,
      threeSlots.follow (.fresh 3 {}) [.call (.start ⟨0⟩ (.start ⟨0⟩)), .call (.arrive ⟨0⟩ (.start ⟨0⟩)),
        .call (.start ⟨1⟩ (.start ⟨1⟩)), .call (.arrive ⟨1⟩ (.start ⟨1⟩)),
        .call (.start ⟨2⟩ (.start ⟨2⟩)), .call (.arrive ⟨2⟩ (.start ⟨2⟩)),
        .call (.depart ⟨0⟩ (.start ⟨0⟩))] = n ∧
      n.executor = .nobody ∧ n.runner = ⟨1⟩ ∧
      (∃ e, threeSlots.depart ⟨1⟩ (.start ⟨1⟩) n = .error e n) ∧
      ∃ r n', threeSlots.depart .nobody (.start ⟨1⟩) n = .ok r n' := by
  obtain ⟨setup, h⟩ := create_threeSlots
  obtain ⟨n, hn, he, hr, hcaptured, hidle⟩ : ∃ n : Ledger Cursor Rotation,
      threeSlots.follow (.fresh 3 {}) [.call (.start ⟨0⟩ (.start ⟨0⟩)), .call (.arrive ⟨0⟩ (.start ⟨0⟩)),
        .call (.start ⟨1⟩ (.start ⟨1⟩)), .call (.arrive ⟨1⟩ (.start ⟨1⟩)),
        .call (.start ⟨2⟩ (.start ⟨2⟩)), .call (.arrive ⟨2⟩ (.start ⟨2⟩)),
        .call (.depart ⟨0⟩ (.start ⟨0⟩))] = n ∧
      n.executor = .nobody ∧ n.runner = ⟨1⟩ ∧ n.captured = 2 ∧
      n.table.state? (threeSlots.scheduler.choose n.runner (.start ⟨1⟩) n.schedulerState).1 =
        some .idle :=
    ⟨_, rfl, rfl, rfl, rfl, rfl⟩
  obtain ⟨-, -, hvacant⟩ := acts_as_executor h hn ⟨1⟩ (.start ⟨1⟩)
  obtain ⟨hrefused, hdeparts, -⟩ := hvacant he
  refine ⟨n, hn, he, hr, (hrefused (by decide)).1, hdeparts.mpr ⟨?_, Nat.le_of_eq hcaptured.symm, hidle⟩⟩
  rw [hr]
  decide

end Arbiter

end SoleRunner
