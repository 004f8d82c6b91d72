import SoleRunner.Proofs.Departing
import SoleRunner.Proofs.Race

/-!
# Proofs/Arriving — exactly what the first section of an arrival does

A thread that arrives from outside joins the captured threads.  Then it runs its own code if it is the
first, takes the role if that is vacant, relieves an executor that owes an uncapture, or waits
(`arrive_from_outside`).  An executor in debt is alone, so that with the newcomer two are captured, of
which one is running: the newcomer is the only idle thread, and nobody else can be the scheduler's answer.
-/

namespace SoleRunner

namespace Ledger

variable {C σ : Type} {m m' : Ledger C σ} {p : Scheduler C σ} {tid next runner executor u : ThreadId}
  {st : ThreadState} {c d x : C} {s : σ}

/-! ## The newcomer joins -/

/-- **`tid` has joined**, in state `st`, and these are the runner and the executor.  Of the other slots only
the runner's may have changed, if `tid` has the role, and there only the context. -/
structure Joins (m : Ledger C σ) (p : Scheduler C σ) (tid : ThreadId) (st : ThreadState)
    (runner executor : ThreadId) (m' : Ledger C σ) : Prop where
  joined_state : m'.table.state? tid = some st
  runner_eq : m'.runner = runner
  runnerHint_eq : m'.runnerHint = runner
  executor_eq : m'.executor = executor
  captured_eq : m'.captured = m.captured + 1
  owes_eq : m'.owesUncapture = m.owesUncapture
  armed_eq : m'.armed = m.armed
  armedHint_eq : m'.armedHint = m.armedHint
  permits_eq : m'.permits = m.permits
  scheduler_eq : m'.schedulerState = p.joined tid (m.captured == 0) m.schedulerState
  state_eq : ∀ u, u ≠ tid → m'.table.state? u = m.table.state? u
  others : ∀ u, u ≠ tid → (executor = tid → u ≠ runner) → m.Spares u m'

/-- The first one runs. -/
theorem joins_first (hs : m.table.Outside tid) (h0 : m.captured = 0) (p : Scheduler C σ) (c : C) :
    m.Joins p tid .running tid m.executor (m.entered p tid c) where
  joined_state := by
    have hs' : (m.table.save tid c).state? tid = some .uncaptured := Table.state?_save.trans hs
    exact (Table.state?_mark_self hs').trans (congrArg some (if_pos h0))
  runner_eq := if_pos h0
  runnerHint_eq := if_pos h0
  executor_eq := rfl
  captured_eq := rfl
  owes_eq := rfl
  armed_eq := rfl
  armedHint_eq := rfl
  permits_eq := rfl
  scheduler_eq := rfl
  state_eq _ hu := state?_entered_of_ne hu
  others _ hu _ := spares_entered hu

/-- A later one is idle. -/
theorem joins_later (h : m.Sound) (hs : m.table.Outside tid) (h0 : m.captured ≠ 0) (p : Scheduler C σ)
    (c : C) : m.Joins p tid .idle m.runner m.executor (m.entered p tid c) where
  joined_state := state?_entered_of_later h0 hs
  runner_eq := if_neg h0
  runnerHint_eq := (if_neg h0).trans h.runnerHint_eq
  executor_eq := rfl
  captured_eq := rfl
  owes_eq := rfl
  armed_eq := rfl
  armedHint_eq := rfl
  permits_eq := rfl
  scheduler_eq := rfl
  state_eq _ hu := state?_entered_of_ne hu
  others _ hu _ := spares_entered hu

/-- It leaves the runner's context as it is. -/
theorem saved?_entered_runner (hb : m.table.Balanced m.captured m.runner) (hs : m.table.Outside tid)
    (h0 : m.captured ≠ 0) (p : Scheduler C σ) (c : C) :
    (m.entered p tid c).table.saved? (m.entered p tid c).runner = m.table.saved? m.runner := by
  rw [entered_runner_of_later h0]
  exact saved?_entered_of_ne (hb.ne_runner_of_outside hs).symm

/-- Then it may take the role, and stamp the runner's context. -/
theorem Joins.takes (h : m.Joins p tid st runner executor m') (log : Array Log.Entry) (d : C) :
    m.Joins p tid st runner tid ((m'.ledBy tid log).withSaved runner d) where
  joined_state := Table.state?_save.trans h.joined_state
  runner_eq := h.runner_eq
  runnerHint_eq := h.runnerHint_eq
  executor_eq := rfl
  captured_eq := h.captured_eq
  owes_eq := h.owes_eq
  armed_eq := h.armed_eq
  armedHint_eq := h.armedHint_eq
  permits_eq := h.permits_eq
  scheduler_eq := h.scheduler_eq
  state_eq u hu := Table.state?_save.trans (h.state_eq u hu)
  others u hu hr := by
    have hled : Spares u m' (m'.ledBy tid log) := .of_table rfl
    exact ((h.others u hu fun _ => hr rfl).trans hled).withSaved (hr rfl)

/-! ## The newcomer relieves an executor in debt -/

/-- **`tid` has joined and replaced the executor**, who has gone out of the program; its debt is paid, and
the scheduler is left in state `s`. -/
structure Relieves (m : Ledger C σ) (tid : ThreadId) (s : σ) (m' : Ledger C σ) : Prop where
  owner_outside : m'.table.Outside m.executor
  newcomer_running : m'.table.state? tid = some .running
  runner_eq : m'.runner = tid
  runnerHint_eq : m'.runnerHint = tid
  executor_eq : m'.executor = tid
  captured_eq : m'.captured = 1
  owes_eq : m'.owesUncapture = false
  armed_eq : m'.armed = m.armed
  armedHint_eq : m'.armedHint = m.armedHint
  permits_eq : m'.permits = m.permits
  scheduler_eq : m'.schedulerState = s
  others : ∀ u, u ≠ tid → u ≠ m.executor → m.Spares u m'

/-- While the executor is alone in the program, the newcomer is the only idle thread. -/
theorem idle_entered_iff (hb : m.table.Balanced m.captured m.runner) (hr : m.runner ≠ .nobody)
    (hn : m.captured = 1) (hs : m.table.Outside tid) :
    (m.entered p tid c).table.state? u = some .idle ↔ u = tid := by
  constructor
  · intro hidle
    by_cases hu : u = tid
    · exact hu
    · rw [state?_entered_of_ne hu] at hidle
      have hmore := hb.one_lt_captured hidle hr
      omega
  · rintro rfl
    exact state?_entered_of_later (by omega) hs

/-- A debt that is paid changes nothing about who runs. -/
theorem Replaces.settled (h : m.Replaces next s m') (tid : ThreadId) (log : Array Log.Entry) (d : C) :
    m.Replaces next s (((m'.debtPaid log).ledBy tid log).withSaved next d) :=
  (h.withRest tid false m'.permits _ log).withSaved (.inl rfl) d

/-- Replacing the executor where the newcomer has joined relieves it. -/
theorem Replaces.relieves (h : (m.entered p tid c).Replaces tid s m') (hr : m.runner = m.executor)
    (hn : m.captured = 1) (he : m'.executor = tid) (ho : m'.owesUncapture = false)
    (hp : m'.permits = m.permits) : m.Relieves tid s m' := by
  have hrunner : (m.entered p tid c).runner = m.executor := (entered_runner_of_later (by omega)).trans hr
  have hout := h.owner_outside
  rw [hrunner] at hout
  refine ⟨hout, h.next_running, h.runner_eq, h.runnerHint_eq, he, ?_, ho, h.armed_eq, h.armedHint_eq, hp,
    h.scheduler_eq, fun u hu hue => (spares_entered hu).trans (h.others u hu (hrunner ▸ hue))⟩
  exact Nat.succ.inj (h.captured_eq.trans (congrArg (· + 1) hn))

end Ledger

namespace Arbiter

open Critical Ledger

variable {C σ : Type} [Context C] {arb : Arbiter C σ} {m m' k : Ledger C σ} {tid : ThreadId} {c d x : C}

/-- A newcomer that finds the role vacant takes it, and goes on with the runner's code. -/
theorem arrive_takes (hb : m.table.Balanced m.captured m.runner) (hs : m.table.Outside tid)
    (ho : m.owesUncapture = false) (he : m.executor = .nobody)
    (hr : (m.entered arb.scheduler tid c).runner ≠ .nobody)
    (hx : (m.entered arb.scheduler tid c).table.saved? (m.entered arb.scheduler tid c).runner = some x) :
    ∃ log, arb.arrive tid c m =
      .ok (.resumed ⟨(m.entered arb.scheduler tid c).runner, .executor,
          arb.stampExecutor (m.entered arb.scheduler tid c).runner x⟩)
        (((m.entered arb.scheduler tid c).ledBy tid log).withSaved
          (m.entered arb.scheduler tid c).runner
          (arb.stampExecutor (m.entered arb.scheduler tid c).runner x)) := by
  obtain ⟨log, htake⟩ := arb.takeRole_of_saved tid hr hx
  refine ⟨log, ?_⟩
  rw [arrive_of_outside hb hs ho, if_pos he, bind_of_ok htake]
  rfl

/-- A debt is paid if and only if the scheduler's answer is the one idle thread. -/
theorem Settles.of_owing {r : EStateM.Result Fault (Ledger C σ) (Arrival C)} (ho : k.owesUncapture = true)
    (hr : k.runner ≠ .nobody) (he : k.runner = k.executor) (hn : k.captured = 2)
    (hidle : ∀ u, k.table.state? u = some .idle ↔ u = tid) (hd : k.table.saved? k.runner = some d)
    (hx : k.table.saved? tid = some x) (hset : Settles arb tid k r) :
    let answer := arb.scheduler.choose k.runner d k.schedulerState
    (left r).schedulerState = answer.2.2 ∧ ((∃ a m', r = .ok a m') ↔ answer.1 = tid) ∧
      (answer.1 = tid → ∃ d' log, r = .ok (.resumed ⟨tid, .executor, arb.stampExecutor tid x⟩)
        ((((k.replaced tid d' answer.2.2).debtPaid log).ledBy tid log).withSaved tid
          (arb.stampExecutor tid x))) := by
  intro answer
  cases hset with
  | astray _ hstray => exact absurd hstray (not_or.mpr ⟨not_not_intro he, not_not_intro hn⟩)
  | unowned _ _ _ hnobody => exact absurd hnobody hr
  | @refused v e d' next s _ _ _ _ he' ha hnext =>
    cases hd.symm.trans he'
    have hanswer : answer = (next, d', s) := ha
    have hne : next ≠ tid := fun heq => hnext ((hidle next).mpr heq)
    rw [hanswer]
    exact ⟨rfl, iff_of_false (error_ne_ok _ _) hne, fun heq => absurd heq hne⟩
  | @paid e d' y next s log _ _ _ _ he' ha hnext hy =>
    cases hd.symm.trans he'
    have hanswer : answer = (next, d', s) := ha
    obtain rfl : next = tid := (hidle next).mp hnext
    cases hx.symm.trans hy
    rw [hanswer]
    exact ⟨rfl, iff_of_true ⟨_, _, rfl⟩ rfl, fun _ => ⟨d', log, rfl⟩⟩
  | leaderless ho' | took ho' | waits ho' => exact nomatch ho.symm.trans ho'

/-! ## The four outcomes -/

/-- The first one runs its own code. -/
theorem arrive_first (hb : m.table.Balanced m.captured m.runner) (hs : m.table.Outside tid)
    (h0 : m.captured = 0) (ho : m.owesUncapture = false) (he : m.executor = .nobody) :
    ∃ m', arb.arrive tid c m = .ok (.resumed ⟨tid, .executor, arb.stampExecutor tid c⟩) m' ∧
      m.Joins arb.scheduler tid .running tid tid m' := by
  have hjoins := joins_first hs h0 arb.scheduler c
  have hx : (m.entered arb.scheduler tid c).table.saved? (m.entered arb.scheduler tid c).runner = some c := by
    rw [hjoins.runner_eq]
    exact saved?_entered_self hs
  have hr : (m.entered arb.scheduler tid c).runner ≠ .nobody := by
    rw [hjoins.runner_eq]
    exact hb.ne_nobody hs
  obtain ⟨log, harrive⟩ := arrive_takes hb hs ho he hr hx
  rw [hjoins.runner_eq] at harrive
  exact ⟨_, harrive, hjoins.takes log _⟩

/-- A later one that finds the role vacant goes on with the runner's code. -/
theorem arrive_vacant (h : m.Sound) (hs : m.table.Outside tid) (h0 : m.captured ≠ 0)
    (hr : m.runner ≠ .nobody) (ho : m.owesUncapture = false) (he : m.executor = .nobody) :
    ∃ x m', m.table.saved? m.runner = some x ∧
      arb.arrive tid c m = .ok (.resumed ⟨m.runner, .executor, arb.stampExecutor m.runner x⟩) m' ∧
      m.Joins arb.scheduler tid .idle m.runner tid m' := by
  have hjoins := joins_later h hs h0 arb.scheduler c
  obtain ⟨x, hx⟩ := h.balanced.runner_saved hr
  have hx' := (saved?_entered_runner h.balanced hs h0 arb.scheduler c).trans hx
  obtain ⟨log, harrive⟩ := arrive_takes h.balanced hs ho he (hjoins.runner_eq ▸ hr) hx'
  rw [hjoins.runner_eq] at harrive
  exact ⟨x, _, hx, harrive, hjoins.takes log _⟩

/-- A later one that finds it taken waits. -/
theorem arrive_waits (h : m.Sound) (hs : m.table.Outside tid) (h0 : m.captured ≠ 0)
    (ho : m.owesUncapture = false) (he : m.executor ≠ .nobody) :
    ∃ m', arb.arrive tid c m = .ok .waiting m' ∧
      m.Joins arb.scheduler tid .idle m.runner m.executor m' :=
  ⟨_, (arrive_of_outside h.balanced hs ho).trans (if_neg he), joins_later h hs h0 arb.scheduler c⟩

/-- One that meets an executor in debt relieves it, if the scheduler names the newcomer. -/
theorem arrive_owing (hb : m.table.Balanced m.captured m.runner) (hs : m.table.Outside tid)
    (ho : m.owesUncapture = true) (he : m.executor = m.runner) (hn : m.captured = 1)
    (hr : m.runner ≠ .nobody) (hd : m.table.saved? m.runner = some d) :
    let answer := arb.scheduler.choose m.runner d (arb.scheduler.joined tid false m.schedulerState)
    (left (arb.arrive tid c m)).schedulerState = answer.2.2 ∧
      ((∃ a m', arb.arrive tid c m = .ok a m') ↔ answer.1 = tid) ∧
      (answer.1 = tid → ∃ m',
        arb.arrive tid c m = .ok (.resumed ⟨tid, .executor, arb.stampExecutor tid c⟩) m' ∧
          m.Relieves tid answer.2.2 m') := by
  intro answer
  have h0 : m.captured ≠ 0 := by omega
  have hrunner : (m.entered arb.scheduler tid c).runner = m.runner := entered_runner_of_later h0
  have hd' := (saved?_entered_runner hb hs h0 arb.scheduler c).trans hd
  have hstate : (m.entered arb.scheduler tid c).schedulerState =
      arb.scheduler.joined tid false m.schedulerState := by
    change arb.scheduler.joined tid (m.captured == 0) m.schedulerState = _
    rw [hn]
    rfl
  have hr' : (m.entered arb.scheduler tid c).runner ≠ .nobody := by
    rw [hrunner]
    exact hr
  have hset := (show Arrives arb tid c m (arb.arrive tid c m) from arrive_outcome hb).of_outside hs
  have hidle (u : ThreadId) := idle_entered_iff (p := arb.scheduler) (c := c) (u := u) hb hr hn hs
  have hmore := hset.of_owing (k := m.entered arb.scheduler tid c) ho hr' (hrunner.trans he.symm)
    (congrArg (· + 1) hn) hidle hd' (saved?_entered_self hs)
  rw [hrunner, hstate] at hmore
  obtain ⟨hsched, hok, hpaid⟩ := hmore
  refine ⟨hsched, hok, fun hanswer => ?_⟩
  obtain ⟨d', log, harrive⟩ := hpaid hanswer
  have hreplaces := replaces_replaced (entered_balanced hb arb.scheduler c hs) hr'
    ((hidle tid).mpr rfl) d' answer.2.2
  exact ⟨_, harrive, (hreplaces.settled tid log _).relieves he.symm hn rfl rfl (by simp)⟩

end Arbiter

namespace Crew

open Critical Arbiter Ledger

variable {C σ : Type} [Context C] {arb : Arbiter C σ} {m : Ledger C σ} {w : Crew C σ}
  {mvs : List (Move C σ)} {tid : ThreadId}

/-- **The first section of an arrival, exactly.**  In every state that a crew can reach, let `tid` be a
thread outside the program, let an executor that owes an uncapture be alone in its own code, and let the
runner be running if anybody is captured.  Then, whatever context `tid` arrives with and whatever the
scheduler answers: the first one runs its own code; one that meets an executor in debt relieves it, if and
only if the scheduler answers with `tid`, and fails otherwise; a later one that finds the role vacant is
idle and goes on with the runner's code; and any other one is idle and waits.  To the context that an
executor goes on with, 1 and its thread's index have been written. -/
theorem arrive_from_outside {scheduler : Scheduler C σ} {initial : σ} {config : Config}
    {setup setup' : Setup C σ} (h : create scheduler initial config setup = .ok (arb, m) setup')
    (hrun : (new m).run arb mvs = some w) (hout : w.ledger.table.Outside tid)
    (howes : w.ledger.owesUncapture = true →
      w.ledger.executor = w.ledger.runner ∧ w.ledger.captured = 1)
    (hrunning : w.ledger.captured ≠ 0 → w.ledger.table.state? w.ledger.runner = some .running) (c : C) :
    let marked (u : ThreadId) (c : C) : C :=
      Context.setReg (Context.setReg c arb.roleReg 1) arb.choiceReg u.raw.toUInt64
    (w.ledger.captured = 0 →
      ∃ m', arb.arrive tid c w.ledger = .ok (.resumed ⟨tid, .executor, marked tid c⟩) m' ∧
        w.ledger.Joins arb.scheduler tid .running tid tid m') ∧
    (w.ledger.owesUncapture = true →
      ∃ d, w.ledger.table.saved? w.ledger.runner = some d ∧
        let answer := arb.scheduler.choose w.ledger.runner d
          (arb.scheduler.joined tid false w.ledger.schedulerState)
        (left (arb.arrive tid c w.ledger)).schedulerState = answer.2.2 ∧
          ((∃ a m', arb.arrive tid c w.ledger = .ok a m') ↔ answer.1 = tid) ∧
          (answer.1 = tid → ∃ m', arb.arrive tid c w.ledger =
              .ok (.resumed ⟨tid, .executor, marked tid c⟩) m' ∧
            w.ledger.Relieves tid answer.2.2 m')) ∧
    (w.ledger.executor = .nobody → w.ledger.captured ≠ 0 →
      ∃ x m', w.ledger.table.saved? w.ledger.runner = some x ∧
        arb.arrive tid c w.ledger =
          .ok (.resumed ⟨w.ledger.runner, .executor, marked w.ledger.runner x⟩) m' ∧
        w.ledger.Joins arb.scheduler tid .idle w.ledger.runner tid m') ∧
    (w.ledger.captured ≠ 0 → w.ledger.owesUncapture = false → w.ledger.executor ≠ .nobody →
      ∃ m', arb.arrive tid c w.ledger = .ok .waiting m' ∧
        w.ledger.Joins arb.scheduler tid .idle w.ledger.runner w.ledger.executor m') := by
  intro marked
  have hw := stationed_of_run h hrun
  have hb := hw.sound.balanced
  have hmarked {u : ThreadId} (hu : u ≠ .nobody) (c : C) : marked u c = arb.stampExecutor u c :=
    (stampExecutor_eq arb hu c).symm
  have hown := hmarked (hb.ne_nobody hout) c
  have hrunner (h0 : w.ledger.captured ≠ 0) : w.ledger.runner ≠ .nobody := hb.ne_nobody (hrunning h0)
  refine ⟨fun h0 => ?_, fun ho => ?_, fun he h0 => ?_, fun h0 ho he => arrive_waits hw.sound hout h0 ho he⟩
  · have ho : w.ledger.owesUncapture = false := by
      refine Bool.eq_false_iff.mpr fun ho => ?_
      have hone := (howes ho).2
      omega
    have he : w.ledger.executor = .nobody :=
      Classical.byContradiction fun he => hw.executor_runs he (hb.runner_eq_nobody h0)
    rw [hown]
    exact arrive_first hb hout h0 ho he
  · obtain ⟨he, hn⟩ := howes ho
    have hr := hrunner (by omega)
    obtain ⟨d, hd⟩ := hb.runner_saved hr
    rw [hown]
    exact ⟨d, hd, arrive_owing hb hout ho he hn hr hd⟩
  · have ho : w.ledger.owesUncapture = false := by
      refine Bool.eq_false_iff.mpr fun ho => ?_
      exact hrunner h0 ((howes ho).1.symm.trans he)
    obtain ⟨x, m', hx, harrive, hjoins⟩ := arrive_vacant hw.sound hout h0 (hrunner h0) ho he
    exact ⟨x, m', hx, hmarked (hrunner h0) x ▸ harrive, hjoins⟩

/-- A thread is alone in a system call when a second one arrives, which the rotation answers with: it runs
in place of the first one, which is outside the program from then on. -/
theorem arrive_from_outside_owing :
    ∃ (w : Crew Cursor Rotation) (m' : Ledger Cursor Rotation),
      (new (.fresh 2 {})).run twoSlots [.start ⟨0⟩ (.start ⟨0⟩), .arrive ⟨0⟩, .depart ⟨0⟩,
        .start ⟨1⟩ (.start ⟨1⟩)] = some w ∧
      w.ledger.owesUncapture = true ∧
      twoSlots.arrive ⟨1⟩ (.start ⟨1⟩) w.ledger =
        .ok (.resumed ⟨⟨1⟩, .executor,
          Context.setReg (Context.setReg (Cursor.start ⟨1⟩) twoSlots.roleReg 1) twoSlots.choiceReg 1⟩)
          m' ∧
      w.ledger.Relieves ⟨1⟩ ⟨[]⟩ m' ∧ m'.table.Outside ⟨0⟩ := by
  obtain ⟨setup, h⟩ := create_twoSlots
  obtain ⟨w, hrun, ho, he, hr, hn, hstate, hout, hs⟩ : ∃ w : Crew Cursor Rotation,
      (new (.fresh 2 {})).run twoSlots [.start ⟨0⟩ (.start ⟨0⟩), .arrive ⟨0⟩, .depart ⟨0⟩,
        .start ⟨1⟩ (.start ⟨1⟩)] = some w ∧
      w.ledger.owesUncapture = true ∧ w.ledger.executor = ⟨0⟩ ∧ w.ledger.runner = ⟨0⟩ ∧
      w.ledger.captured = 1 ∧ w.ledger.table.state? ⟨0⟩ = some .running ∧
      w.ledger.table.Outside ⟨1⟩ ∧ w.ledger.schedulerState = ⟨[]⟩ :=
    ⟨_, rfl, rfl, rfl, rfl, rfl, rfl, rfl, rfl⟩
  obtain ⟨-, howing, -⟩ := arrive_from_outside h hrun hout (fun _ => ⟨he.trans hr.symm, hn⟩)
    (fun _ => hr ▸ hstate) (.start ⟨1⟩)
  obtain ⟨d, -, -, -, hpaid⟩ := howing ho
  rw [hs, hr] at hpaid
  obtain ⟨m', harrive, hrelieves⟩ := hpaid rfl
  exact ⟨w, m', hrun, ho, harrive, hrelieves, he ▸ hrelieves.owner_outside⟩

end Crew

end SoleRunner
