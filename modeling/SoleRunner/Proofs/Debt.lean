import SoleRunner.Proofs.Stationed

/-!
# Proofs/Debt — an executor that owes its uncapture

An executor that goes into a system call alone keeps its role and owes its uncapture.  The debt can be
settled as long as that executor is still the runner and still the only captured thread
(`Ledger.Alone`): then neither its return, nor its exit, nor the arrival of a newcomer finds the ledger
in disorder, and otherwise each of them does.  In a run it stays so exactly until a blocked thread is put
back into the pool while the debt is open (`Crew.alone_while_owing_iff`).
-/

namespace SoleRunner

namespace Ledger

variable {C σ : Type} {m m' : Ledger C σ}

/-- **The executor runs, and nobody else is captured.** -/
structure Alone (m : Ledger C σ) : Prop where
  executor_eq : m.executor = m.runner
  running : m.table.state? m.runner = some .running
  captured_eq : m.captured = 1

/-- A ledger with the same roles, the same count and the same state of the runner. -/
theorem Alone.congr (h : m.Alone) (he : m'.executor = m.executor) (hr : m'.runner = m.runner)
    (hn : m'.captured = m.captured) (hs : m'.table.state? m.runner = m.table.state? m.runner) :
    m'.Alone where
  executor_eq := by rw [he, hr, h.executor_eq]
  running := by rw [hr, hs, h.running]
  captured_eq := hn.trans h.captured_eq

theorem Alone.executor_running (h : m.Alone) : m.table.state? m.executor = some .running :=
  h.executor_eq ▸ h.running

theorem Alone.withSaved (h : m.Alone) (tid : ThreadId) (c : C) : (m.withSaved tid c).Alone :=
  h.congr rfl rfl rfl Table.state?_save

/-- While something is owed, the executor is alone. -/
def SettledAlone (m : Ledger C σ) : Prop := m.owesUncapture = true → m.Alone

/-- Nobody beside the runner can be chosen while it is alone. -/
theorem Alone.not_idle (h : m.Alone) (hs : m.Sound) {u : ThreadId} :
    m.table.state? u ≠ some .idle := fun hidle =>
  absurd h.captured_eq (Nat.ne_of_gt (hs.balanced.one_lt_captured hidle
    (hs.balanced.runner_ne_nobody_of_running h.running)))

end Ledger

namespace Arbiter

open Critical

variable {C σ α : Type} {arb : Arbiter C σ} {m m' : Ledger C σ} {tid : ThreadId} {c : C}

/-- The section found the ledger in disorder. -/
def Breaks (r : EStateM.Result Fault (Ledger C σ) α) : Prop :=
  ∃ check n, r = .error (.broken check) n

theorem not_breaks_ok (a : α) : ¬ Breaks (.ok a m : EStateM.Result Fault (Ledger C σ) α) := by
  rintro ⟨check, n, h⟩
  nomatch h

theorem breaks_broken (check : Check) :
    Breaks (.error (.broken check) m : EStateM.Result Fault (Ledger C σ) α) := ⟨_, _, rfl⟩

theorem not_breaks_violation (v : Violation) :
    ¬ Breaks (.error (.violation v) m : EStateM.Result Fault (Ledger C σ) α) := by
  rintro ⟨check, n, h⟩
  nomatch h

/-- An executor that runs does so as the runner. -/
theorem alone_iff_of_running (hs : m.Sound) (hrun : m.table.state? m.executor = some .running) :
    m.Alone ↔ m.captured = 1 := by
  refine ⟨fun h => h.captured_eq, fun hn => ?_⟩
  have he := hs.balanced.runner_eq_of_running hrun
  exact ⟨he, he ▸ hrun, hn⟩

theorem not_alone_of_not_running (hrun : m.table.state? m.executor ≠ some .running) : ¬ m.Alone :=
  fun h => hrun h.executor_running

/-- **The executor's arrival breaks exactly if the executor is not alone.** -/
theorem arrive_executor_breaks_iff [Context C] (hs : m.Sound) (he : m.executor ≠ .nobody) :
    Breaks (arb.arrive m.executor c m) ↔ ¬ m.Alone := by
  obtain ⟨s, hstate, hne⟩ := hs.executor_inside he
  have ho : Arrives arb m.executor c m (arb.arrive m.executor c m) := arrive_outcome hs.balanced
  generalize arb.arrive m.executor c m = r at ho
  cases ho with
  | unknown hu => rw [hstate] at hu; nomatch hu
  | inside hu hin =>
    refine iff_of_true (breaks_broken _) (not_alone_of_not_running ?_)
    rw [hu]
    rcases hin with rfl | rfl <;> decide
  | astray hu h =>
    refine iff_of_true (breaks_broken _) ?_
    rw [alone_iff_of_running hs hu]
    exact h.resolve_left (not_not_intro rfl)
  | returned hu _ hn =>
    exact iff_of_false (not_breaks_ok _) (not_not_intro ((alone_iff_of_running hs hu).mpr hn))
  | joined hu => rw [hstate] at hu; exact absurd (Option.some.inj hu) hne

/-- **The executor's exit breaks exactly if the executor is not alone.** -/
theorem endThread_executor_breaks_iff (arb : Arbiter C σ) (hs : m.Sound) (he : m.executor ≠ .nobody) :
    Breaks (arb.endThread m.executor m) ↔ ¬ m.Alone := by
  obtain ⟨s, hstate, hne⟩ := hs.executor_inside he
  have ho := arb.endThread_outcome m.executor m
  generalize arb.endThread m.executor m = r at ho
  cases ho with
  | unknown hu => rw [hstate] at hu; nomatch hu
  | refused hu _ h =>
    refine iff_of_true (breaks_broken _) fun ha => ?_
    exact (h (Option.some.inj (hu.symm.trans ha.executor_running))).elim (· ha.captured_eq) (· rfl)
  | outside hu => rw [hstate] at hu; exact absurd (Option.some.inj hu) hne
  | last hu hn =>
    exact iff_of_false (not_breaks_ok _) (not_not_intro ((alone_iff_of_running hs hu).mpr hn))

/-- Joining does not hide whether the executor is alone. -/
theorem alone_iff_of_entered (hs : m.Sound) (he : m.executor ≠ .nobody) (p : Scheduler C σ)
    (tid : ThreadId) (c : C) :
    m.Alone ↔ (m.entered p tid c).runner = (m.entered p tid c).executor ∧
      (m.entered p tid c).captured = 2 := by
  constructor
  · intro h
    have hlater : m.captured ≠ 0 := by rw [h.captured_eq]; exact Nat.one_ne_zero
    refine ⟨?_, congrArg (· + 1) h.captured_eq⟩
    rw [Ledger.entered_runner_of_later hlater]
    exact h.executor_eq.symm
  · rintro ⟨hr, hn⟩
    have hone : m.captured = 1 := Nat.succ.inj hn
    rw [Ledger.entered_runner_of_later (by rw [hone]; exact Nat.one_ne_zero)] at hr
    have hr' : m.runner = m.executor := hr
    exact ⟨hr'.symm, hs.balanced.runner_running (hr' ▸ he), hone⟩

/-- **While an uncapture is owed, a newcomer's arrival breaks exactly if the executor is not alone.** -/
theorem arrive_newcomer_breaks_iff [Context C] (hs : m.Sound) (he : m.executor ≠ .nobody)
    (howes : m.owesUncapture = true) (hu : m.table.Outside tid) :
    Breaks (arb.arrive tid c m) ↔ ¬ m.Alone := by
  rw [alone_iff_of_entered hs he arb.scheduler tid c]
  have ho : Arrives arb tid c m (arb.arrive tid c m) := arrive_outcome hs.balanced
  generalize arb.arrive tid c m = r at ho
  have hset := ho.of_outside hu
  cases hset with
  | astray _ h => exact iff_of_true (breaks_broken _) fun ha => h.elim (· ha.1) (· ha.2)
  | unowned _ he' _ hr => exact absurd (he'.symm.trans hr) he
  | refused _ he' hn => exact iff_of_false (not_breaks_violation _) (not_not_intro ⟨he', hn⟩)
  | paid _ he' hn => exact iff_of_false (not_breaks_ok _) (not_not_intro ⟨he', hn⟩)
  | leaderless hfree => exact absurd (howes.symm.trans hfree) (by decide)
  | took hfree => exact absurd (howes.symm.trans hfree) (by decide)
  | waits hfree => exact absurd (howes.symm.trans hfree) (by decide)

/-! ## What keeps the executor alone while it owes -/

theorem Settles.settledAlone [Context C] {a : Arrival C} (ho : Settles arb tid m (.ok a m')) :
    m'.SettledAlone := by
  intro howes
  cases ho with
  | paid => nomatch howes
  | took hfree => exact absurd (howes.symm.trans hfree) (by decide)
  | waits hfree => exact absurd (howes.symm.trans hfree) (by decide)

theorem Arrives.settledAlone [Context C] {a : Arrival C} (ho : Arrives arb tid c m (.ok a m')) :
    m'.SettledAlone := by
  cases ho with
  | returned => exact nofun
  | joined _ hset => exact hset.settledAlone

theorem Looks.settledAlone [Context C] (h : m.SettledAlone) (hs : m.Sound) {a : Arrival C}
    (ho : Looks arb tid m (.ok a m')) : m'.SettledAlone := by
  intro howes
  have ha : m.Alone := by cases ho <;> exact h howes
  cases ho with
  | @released _ log => exact (ha.congr rfl rfl rfl rfl : (m.logged log).Alone).withSaved _ _
  | took _ _ he =>
    have hr := hs.balanced.runner_ne_nobody_of_running ha.running
    exact absurd (ha.executor_eq.symm.trans he) hr
  | waits => exact ha.congr rfl rfl rfl rfl

/-- A departure opens the debt for an executor that is alone, and no executor that is alone departs in
another way. -/
theorem Departs.settledAlone [Context C] (h : m.SettledAlone) (hs : m.Sound) {r : Resume C}
    (ho : Departs arb tid c m (.ok r m')) : m'.SettledAlone := by
  intro howes
  cases ho with
  | shipped _ _ _ hn => exact absurd (h howes).captured_eq (Nat.ne_of_gt hn)
  | handedOver _ _ _ hn => exact absurd (h howes).captured_eq (Nat.ne_of_gt hn)
  | @owed log he hr htid hn =>
    have hrunner : m.runner ≠ .nobody := hr ▸ htid
    have hpos := hs.balanced.captured_pos_of_runner hrunner
    have ha : m.Alone :=
      ⟨he.trans hr.symm, hs.balanced.runner_running hrunner, Nat.le_antisymm (Nat.le_of_lt_succ hn) hpos⟩
    exact (ha.congr rfl rfl rfl rfl : (m.owing log).Alone).withSaved _ _

theorem Switches.settledAlone [Context C] (h : m.SettledAlone) (hs : m.Sound) {r : Resume C}
    (ho : Switches arb tid c m (.ok r m')) : m'.SettledAlone := by
  intro howes
  cases ho with
  | switched hcheck =>
    obtain ⟨-, -, -, hidle⟩ := of_checkSwitch hcheck
    exact absurd hidle ((h howes).not_idle hs)

theorem Finishes.settledAlone (h : m.SettledAlone) (ho : Finishes arb tid m (.ok () m')) :
    m'.SettledAlone := by
  intro howes
  cases ho with
  | outside => exact (h howes).congr rfl rfl rfl rfl
  | last => nomatch howes

theorem Blocks.settledAlone (h : m.SettledAlone) {r : EStateM.Result Fault (Ledger C σ) Unit}
    (ho : Blocks tid m r) : (left r).SettledAlone := by
  cases ho with
  | unknown => exact h
  | refused => exact h
  | last => exact h
  | blocked _ hn => exact fun howes => absurd (h howes).captured_eq (Nat.ne_of_gt hn)

theorem Unblocks.settledAlone (h : m.SettledAlone) {r : EStateM.Result Fault (Ledger C σ) Unit}
    (hno : ¬ (m.table.state? tid = some .blocked ∧ m.owesUncapture = true)) (ho : Unblocks tid m r) :
    (left r).SettledAlone := by
  cases ho with
  | unknown => exact h
  | refused => exact h
  | unblocked hu => exact fun howes => absurd ⟨hu, howes⟩ hno

theorem Edits.settledAlone (h : m.SettledAlone) {r : EStateM.Result Fault (Ledger C σ) α}
    (ho : Edits tid m r) : (left r).SettledAlone := by
  cases ho with
  | refused => exact h
  | edited => exact fun howes => (h howes).withSaved _ _

theorem settledAlone_armBlock (h : m.SettledAlone) : (left (armBlock m)).SettledAlone := by
  rw [armBlock_apply]
  split
  · exact h
  · exact fun howes => (h howes).congr rfl rfl rfl rfl

theorem settledAlone_planUnit (u : CodeUnit) (h : m.SettledAlone) :
    (left (arb.planUnit u m)).SettledAlone := by
  obtain ⟨e, hp⟩ | ⟨p, log, hp⟩ := arb.planUnit_apply u m <;> rw [hp] <;>
    exact fun howes => (h howes).congr rfl rfl rfl rfl

end Arbiter

namespace Crew

open Critical Arbiter

variable {C σ : Type} [Context C] {arb : Arbiter C σ} {w w' : Crew C σ} {m : Ledger C σ}
  {mv : Move C σ} {mvs : List (Move C σ)}

/-- The move puts a blocked thread back into the pool while an uncapture is owed. -/
def Overfills (w : Crew C σ) (mv : Move C σ) : Prop :=
  ∃ tid, mv = .request (.unblock tid) ∧ w.ledger.table.state? tid = some .blocked ∧
    w.ledger.owesUncapture = true

theorem settledAlone_of_request (h : w.ledger.SettledAlone) {call : Call C}
    (hc : call.isHandler = false) (hno : ¬ w.Overfills (.request call : Move C σ)) :
    (left (arb.perform call w.ledger)).SettledAlone := by
  cases call with
  | start => nomatch hc
  | finish => nomatch hc
  | arrive => nomatch hc
  | depart => nomatch hc
  | switch => nomatch hc
  | plan => nomatch hc
  | armBlock => exact left_answer Ledger.SettledAlone (settledAlone_armBlock h)
  | block tid => exact left_answer Ledger.SettledAlone ((arb.block_outcome tid _).settledAlone h)
  | unblock tid =>
    have hno' : ¬ (w.ledger.table.state? tid = some .blocked ∧ w.ledger.owesUncapture = true) :=
      fun hin => hno ⟨tid, rfl, hin⟩
    exact left_answer Ledger.SettledAlone ((arb.unblock_outcome tid _).settledAlone h hno')
  | readRegister tid r => exact left_answer Ledger.SettledAlone ((editContext_outcome tid _ _).settledAlone h)
  | writeRegister tid r v =>
    exact left_answer Ledger.SettledAlone ((editContext_outcome tid _ _).settledAlone h)
  | copyContext tid => exact left_answer Ledger.SettledAlone ((editContext_outcome tid _ _).settledAlone h)
  | replaceContext tid c =>
    exact left_answer Ledger.SettledAlone ((editContext_outcome tid _ _).settledAlone h)

/-- **A move leaves an executor that owes alone, unless it overfills the pool.** -/
theorem Moves.settledAlone (hw : w.Stationed) (h : w.ledger.SettledAlone) (hno : ¬ w.Overfills mv)
    (hm : Moves arb w mv w') : w'.ledger.SettledAlone := by
  cases hm with
  | start hp ho =>
    have ho := ho ▸ arb.startThread_outcome _ _ w.ledger
    cases ho
    exact fun howes => (h howes).congr rfl rfl rfl rfl
  | arrive hp hg ho => exact (ho ▸ arrive_outcome hw.sound.balanced : Arrives ..).settledAlone
  | depart hp hg ho =>
    exact (ho ▸ depart_outcome hw.sound.balanced : Departs ..).settledAlone h hw.sound
  | switch hp hg ho =>
    exact (ho ▸ switch_outcome hw.sound.balanced : Switches ..).settledAlone h hw.sound
  | finish hp hg ho => exact (ho ▸ arb.endThread_outcome _ w.ledger : Finishes ..).settledAlone h
  | compute => exact h
  | wake => exact fun howes => (h howes).congr rfl rfl rfl rfl
  | look hp ho =>
    exact (ho ▸ lookAgain_outcome hw.sound.balanced : Looks ..).settledAlone h hw.sound
  | plan => exact settledAlone_planUnit _ h
  | request hc => exact settledAlone_of_request h hc hno
  | edit => exact (editContext_outcome _ _ w.ledger).settledAlone h
  | think => exact fun howes => (h howes).congr rfl rfl rfl rfl

/-- A move that overfills the pool leaves the executor in company. -/
theorem not_settledAlone_of_overfills (hno : w.Overfills mv) (hm : Moves arb w mv w')
    (h : w.ledger.SettledAlone) : ¬ w'.ledger.SettledAlone := by
  obtain ⟨tid, rfl, hblocked, howes⟩ := hno
  cases hm with
  | request hc =>
    refine left_answer (fun n : Ledger C σ => ¬ n.SettledAlone) ?_
    have ho := arb.unblock_outcome tid w.ledger
    generalize arb.unblock tid w.ledger = r at ho
    cases ho with
    | unknown hu => rw [hblocked] at hu; nomatch hu
    | refused hu hne => exact absurd (Option.some.inj (hu.symm.trans hblocked)) hne
    | unblocked =>
      intro h'
      have htwo : w.ledger.captured + 1 = 1 := (h' howes).captured_eq
      rw [(h howes).captured_eq] at htwo
      nomatch htwo

/-! ## Runs -/

variable {scheduler : Scheduler C σ} {initial : σ} {config : Config} {setup setup' : Setup C σ}

omit [Context C] in
theorem settledAlone_of_create (h : create scheduler initial config setup = .ok (arb, m) setup') :
    m.SettledAlone := by
  obtain ⟨-, -, -, rfl⟩ := of_create_ok h
  exact nofun

/-- Until the pool is overfilled, the executor is alone while it owes. -/
theorem settledAlone_of_run (h : create scheduler initial config setup = .ok (arb, m) setup')
    (hrun : (new m).run arb mvs = some w) (hno : ¬ (new m).HappensIn arb Overfills mvs) :
    w.ledger.SettledAlone := by
  have hboth : w.Stationed ∧ w.ledger.SettledAlone := by
    refine of_run_unless (P := fun w => w.Stationed ∧ w.ledger.SettledAlone) (fun v v' mv hv hno hm => ?_)
      ⟨stationed_of_create h, settledAlone_of_create h⟩ hno hrun
    exact ⟨hm.stationed hv.1, hm.settledAlone hv.1 hv.2 hno⟩
  exact hboth.2

/-- **When an executor that owes its uncapture is alone.**  In a run of a new arbiter's crew, whoever
owes an uncapture is the runner, runs, and is the only captured thread, in every state that the run goes
through, exactly if no blocked thread is put back into the pool while an uncapture is owed.  In a state
with a debt, being alone is what the return of the executor, its exit, and the arrival of a newcomer each
need and all that they need: otherwise each of them finds the ledger in disorder. -/
theorem alone_while_owing_iff (h : create scheduler initial config setup = .ok (arb, m) setup')
    (hrun : (new m).run arb mvs = some w) :
    ((∀ pre post v, mvs = pre ++ post → (new m).run arb pre = some v →
        v.ledger.owesUncapture = true → v.ledger.Alone) ↔
      ¬ (new m).HappensIn arb Overfills mvs) ∧
    (w.ledger.owesUncapture = true → w.ledger.executor ≠ .nobody →
      (∀ c, Breaks (arb.arrive w.ledger.executor c w.ledger) ↔ ¬ w.ledger.Alone) ∧
      (∀ tid c, w.ledger.table.Outside tid →
        (Breaks (arb.arrive tid c w.ledger) ↔ ¬ w.ledger.Alone)) ∧
      (Breaks (arb.endThread w.ledger.executor w.ledger) ↔ ¬ w.ledger.Alone)) := by
  have hs : w.ledger.Sound := (stationed_of_run h hrun).sound
  refine ⟨⟨?_, fun hno pre post v hsplit hpre => ?_⟩, fun howes he => ⟨fun c => ?_, fun tid c hu => ?_, ?_⟩⟩
  · rintro hall ⟨pre, mv, post, v, rfl, hpre, hover⟩
    obtain ⟨v', hnext, -⟩ : ∃ v', v.next arb mv = some v' ∧ v'.run arb post = some w := by
      rw [run_append, hpre] at hrun
      exact of_run_cons hrun
    have hpre' : (new m).run arb (pre ++ [mv]) = some v' := by
      rw [run_append, hpre, Option.bind_some, run_cons, hnext, Option.bind_some, run_nil]
    refine not_settledAlone_of_overfills hover (moves_of_next hnext) (hall pre (mv :: post) v rfl hpre) ?_
    exact hall (pre ++ [mv]) post v' (List.append_cons ..) hpre'
  · refine settledAlone_of_run h hpre fun hin => hno ?_
    exact hsplit ▸ hin.append post
  · exact arrive_executor_breaks_iff hs he
  · exact arrive_newcomer_breaks_iff hs he howes hu
  · exact arb.endThread_executor_breaks_iff hs he

/-- Two threads arrive, the second one is blocked, the first one goes into a system call, and the second
one is put back into the pool: now the first one cannot come back, and cannot exit either. -/
theorem alone_while_owing_fails_unblock :
    ∃ w : Crew Cursor Rotation,
      (new (.fresh 2 {})).run twoSlots [.start ⟨0⟩ (.start ⟨0⟩), .arrive ⟨0⟩, .start ⟨1⟩ (.start ⟨1⟩),
        .arrive ⟨1⟩, .request (.block ⟨1⟩), .depart ⟨0⟩, .request (.unblock ⟨1⟩)] = some w ∧
      w.ledger.executor = ⟨0⟩ ∧ w.ledger.owesUncapture = true ∧ ¬ w.ledger.Alone ∧
      Breaks (twoSlots.arrive ⟨0⟩ (.start ⟨0⟩) w.ledger) ∧ Breaks (twoSlots.endThread ⟨0⟩ w.ledger) := by
  obtain ⟨setup, h⟩ := create_twoSlots
  obtain ⟨w, hrun, he, howes, hn⟩ : ∃ w : Crew Cursor Rotation,
      (new (.fresh 2 {})).run twoSlots [.start ⟨0⟩ (.start ⟨0⟩), .arrive ⟨0⟩, .start ⟨1⟩ (.start ⟨1⟩),
        .arrive ⟨1⟩, .request (.block ⟨1⟩), .depart ⟨0⟩, .request (.unblock ⟨1⟩)] = some w ∧
      w.ledger.executor = ⟨0⟩ ∧ w.ledger.owesUncapture = true ∧ w.ledger.captured = 2 :=
    ⟨_, rfl, rfl, rfl, rfl⟩
  have halone : ¬ w.ledger.Alone := fun ha => absurd (hn.symm.trans ha.captured_eq) (by decide)
  obtain ⟨-, hdebt⟩ := alone_while_owing_iff h hrun
  obtain ⟨hback, -, hexit⟩ := hdebt howes (he ▸ by decide)
  rw [he] at hback hexit
  exact ⟨w, hrun, he, howes, halone, (hback _).mpr halone, hexit.mpr halone⟩

end Crew

end SoleRunner
