import SoleRunner.Arbiter.Switch
import SoleRunner.Proofs.Steps

/-!
# Proofs/Outcome/Switch — every way in which a switch can end

A switch is refused before it changes anything, or the runner is left for the thread of the decision
(`Ledger.switched`).  `Switches` lists the ends, and `switch_outcome` says that on a balanced ledger
there are no others.
-/

namespace SoleRunner

namespace Ledger

variable {C σ : Type}

/-- The ledger once the runner has stopped running: it is blocked if a block was armed, and idle
otherwise. -/
@[simps permits runner executor owesUncapture]
def runnerLeft (m : Ledger C σ) : Ledger C σ :=
  { m with
    table := m.table.mark m.runner (if m.armed then .blocked else .idle)
    captured := if m.armed then m.captured - 1 else m.captured
    armed := false
    armedHint := if m.armed then false else m.armedHint
    stats := { m.stats with blocks := if m.armed then m.stats.blocks + 1 else m.stats.blocks } }

/-- **The ledger once `next` runs instead of the runner**, who stays inside the program with context
`c`. -/
@[simps permits runner executor owesUncapture]
def switched (m : Ledger C σ) (next : ThreadId) (c : C) (log : Array Log.Entry) : Ledger C σ :=
  { (m.withSaved m.runner c).runnerLeft with
    table := (m.withSaved m.runner c).runnerLeft.table.mark next .running
    runner := next
    runnerHint := next
    stats := { (m.withSaved m.runner c).runnerLeft.stats with switches := m.stats.switches + 1 }
    log }

section

variable {m : Ledger C σ} {next u : ThreadId} {c : C} {log : Array Log.Entry}

theorem switched_balanced (h : m.table.Balanced m.captured m.runner) (hr : m.runner ≠ .nobody)
    (hn : m.table.state? next = some .idle) (c : C) (log : Array Log.Entry) :
    (m.switched next c log).table.Balanced (m.switched next c log).captured next := by
  have hsave : (m.table.save m.runner c).Balanced m.captured m.runner := h.save
  have hidle : (m.table.save m.runner c).state? next = some .idle := Table.state?_save.trans hn
  cases ha : m.armed with
  | true =>
    simp only [switched, runnerLeft, withSaved, ha, if_true]
    exact hsave.markNext (s := .blocked) hr (by decide) hidle
  | false =>
    simp only [switched, runnerLeft, withSaved, ha, Bool.false_eq_true, if_false]
    exact hsave.markNext (s := .idle) hr (by decide) hidle

theorem state?_switched_of_ne (hn : u ≠ next) (hr : u ≠ m.runner) :
    (m.switched next c log).table.state? u = m.table.state? u := by
  rw [switched, Table.state?_mark_of_ne hn]
  exact (Table.state?_mark_of_ne hr).trans Table.state?_save

/-- The runner that has been left is still inside the program. -/
theorem state?_switched_runner {st : ThreadState} (hne : next ≠ m.runner)
    (hs : m.table.state? m.runner = some st) :
    (m.switched next c log).table.state? m.runner =
      some (if m.armed then .blocked else .idle) := by
  rw [switched, Table.state?_mark_of_ne hne.symm]
  exact Table.state?_mark_self (Table.state?_save.trans hs)

theorem state?_switched_next {st : ThreadState} (hne : next ≠ m.runner)
    (hs : m.table.state? next = some st) :
    (m.switched next c log).table.state? next = some .running := by
  rw [switched, Table.state?_mark_self]
  exact (Table.state?_mark_of_ne hne).trans (Table.state?_save.trans hs)

/-- The runner that is left has not gone out of the program. -/
theorem left_ne_uncaptured (m : Ledger C σ) :
    (if m.armed then ThreadState.blocked else .idle) ≠ .uncaptured := by
  cases m.armed <;> decide

@[simp] theorem capacity_switched (m : Ledger C σ) (next : ThreadId) (c : C) (log : Array Log.Entry) :
    (m.switched next c log).table.capacity = m.table.capacity := by
  simp only [switched, runnerLeft, withSaved, Table.capacity_mark, Table.capacity_save]

/-- A switch changes nothing about who is inside the program. -/
theorem inside_switched (hb : m.table.Balanced m.captured m.runner) (hr : m.runner ≠ .nobody)
    (hn : m.table.state? next = some .idle) :
    (m.switched next c log).table.Inside u ↔ m.table.Inside u := by
  have hleft := left_ne_uncaptured m
  have hidle : m.table.Inside next := Table.inside_of_state hn (by decide)
  have hrun := hb.runner_inside hr
  refine (Table.inside_mark_of_inside (hidle.save.mark (.inl hleft)) (by decide)).trans ?_
  exact (Table.inside_mark_of_inside hrun.save hleft).trans (Table.inside_congr Table.state?_save)

theorem outside_switched (hb : m.table.Balanced m.captured m.runner) (hr : m.runner ≠ .nobody)
    (hn : m.table.state? next = some .idle) :
    (m.switched next c log).table.Outside u ↔ m.table.Outside u := by
  have hleft := left_ne_uncaptured m
  have hidle : m.table.Inside next := Table.inside_of_state hn (by decide)
  have hrun := hb.runner_inside hr
  refine (Table.outside_mark_of_inside (hidle.save.mark (.inl hleft)) (by decide)).trans ?_
  exact (Table.outside_mark_of_inside hrun.save hleft).trans (Table.outside_congr Table.state?_save)

end

end Ledger

namespace Arbiter

open Critical

variable {C σ : Type} [Context C] {arb : Arbiter C σ} {m : Ledger C σ} {tid : ThreadId} {c : C}

/-! ## The check -/

omit [Context C] in
theorem idle_of_checkChoice {t : Table C} {next : ThreadId} (h : checkChoice t next = .ok ()) :
    t.state? next = some .idle := by
  by_cases hs : t.state? next = some .idle
  · exact hs
  · obtain ⟨v, hv⟩ := checkChoice_of_not_idle hs
    rw [hv] at h
    nomatch h

/-- What a switch that is not refused has been checked for. -/
theorem of_checkSwitch (h : arb.checkSwitch m tid c = .ok ()) :
    Context.reg c arb.roleReg = 1 ∧ m.executor = tid ∧ arb.decision c ≠ m.runner ∧
      m.table.state? (arb.decision c) = some .idle := by
  unfold checkSwitch at h
  dsimp only at h
  split at h
  · nomatch h
  next hrole =>
  split at h
  · nomatch h
  split at h
  · nomatch h
  next he =>
  split at h
  · nomatch h
  next hne =>
  exact ⟨Classical.not_not.mp hrole, Classical.not_not.mp he, hne, idle_of_checkChoice h⟩

/-- And that is all that it is checked for. -/
theorem checkSwitch_of (hn : m.table.state? .nobody = none) (hrole : Context.reg c arb.roleReg = 1)
    (he : m.executor = tid) (hne : arb.decision c ≠ m.runner)
    (hidle : m.table.state? (arb.decision c) = some .idle) : arb.checkSwitch m tid c = .ok () := by
  unfold checkSwitch
  dsimp only
  rw [if_neg (not_not_intro hrole), if_neg fun hkept => hne hkept.2, if_neg (not_not_intro he),
    if_neg hne]
  exact checkChoice_of_idle hn hidle

/-! ## The whole section -/

/-- **How a switch can end**, on ledger `m`. -/
inductive Switches (arb : Arbiter C σ) (tid : ThreadId) (c : C) (m : Ledger C σ) :
    EStateM.Result Fault (Ledger C σ) (Resume C) → Prop
  | refused {e : Fault} (h : arb.checkSwitch m tid c = .error e) : Switches arb tid c m (.error e m)
  /-- There is no runner to leave. -/
  | leaderless (h : arb.checkSwitch m tid c = .ok ()) (hr : m.runner = .nobody) :
      Switches arb tid c m (.error (.capacityExceeded .nobody m.table.capacity) m)
  /-- The thread of the decision runs. -/
  | switched {x : C} {log : Array Log.Entry} (h : arb.checkSwitch m tid c = .ok ())
      (hr : m.runner ≠ .nobody) (hx : m.table.saved? (arb.decision c) = some x) :
      Switches arb tid c m
        (.ok ⟨arb.decision c, .executor, arb.stampExecutor (arb.decision c) x⟩
          ((m.switched (arb.decision c) (arb.stampPlain c) log).withSaved (arb.decision c)
            (arb.stampExecutor (arb.decision c) x)))

omit [Context C] in
/-- Leaving the runner, in one step. -/
theorem leaveRunner_apply (hr : m.runner = tid) (hs : m.table.state? tid = some .running)
    (hn : 0 < m.captured) : leaveRunner tid m = .ok () m.runnerLeft := by
  subst hr
  rw [leaveRunner, bind_of_ok (get_apply m)]
  cases ha : m.armed with
  | true =>
    rw [if_pos rfl, bind_of_ok (moveState_of_some hs), bind_of_ok (get_apply _),
      bind_of_ok (expect_of hn _), bind_of_ok (get_apply _), bind_of_ok (setCaptured_apply _ _),
      bind_of_ok (setArmed_apply false _), Ledger.runnerLeft, ha]
    rfl
  | false =>
    rw [if_neg Bool.false_ne_true, moveState_of_some hs, Ledger.runnerLeft]
    simp only [ha, Bool.false_eq_true, if_false]

/-- **A switch ends in one of the listed ways.** -/
theorem switch_outcome (hb : m.table.Balanced m.captured m.runner) :
    Switches arb tid c m (arb.switch tid c m) := by
  cases hcheck : arb.checkSwitch m tid c with
  | error e =>
    rw [switch, bind_of_ok (get_apply m), hcheck, ofExcept_error, bind_of_error (throw_apply e m)]
    exact .refused hcheck
  | ok =>
    rw [switch, bind_of_ok (get_apply m), hcheck, ofExcept_ok, bind_of_ok (pure_apply _ m),
      bind_of_ok (get_apply m)]
    by_cases hr : m.runner = .nobody
    · have hn : m.table.state? m.runner = none := by rw [hr, hb.nobody_unknown]
      simp only [bind_of_error (storeContext_of_none hn)]
      rw [hr]
      exact .leaderless hcheck hr
    · obtain ⟨-, -, hne, hidle⟩ := of_checkSwitch hcheck
      obtain ⟨x, hx⟩ := hb.saved _ .idle hidle (by decide)
      have hrun : (m.withSaved m.runner (arb.stampPlain c)).table.state? m.runner = some .running :=
        Table.state?_save.trans (hb.runner_running hr)
      have hnext : (m.withSaved m.runner (arb.stampPlain c)).runnerLeft.table.state? (arb.decision c) =
          some .idle := (Table.state?_mark_of_ne hne).trans (Table.state?_save.trans hidle)
      have hx' : (m.switched (arb.decision c) (arb.stampPlain c) m.log).table.saved? (arb.decision c) =
          some x := Table.saved?_mark.trans
            (Table.saved?_mark.trans ((Table.saved?_save_of_ne hne).trans hx))
      have hleave : leaveRunner m.runner (m.withSaved m.runner (arb.stampPlain c)) =
          .ok () (m.withSaved m.runner (arb.stampPlain c)).runnerLeft :=
        leaveRunner_apply rfl hrun (hb.captured_pos_of_runner hr)
      have hresume (log : Array Log.Entry) :
          arb.resumeRunner (m.switched (arb.decision c) (arb.stampPlain c) log) = _ :=
        resumeRunner_of_saved (hb.ne_nobody hidle) hx'
      simp only [bind_of_ok (storeContext_of_some (hb.runner_running hr))]
      rw [bind_of_ok hleave, bind_of_ok (setRunner_apply _ _),
        bind_of_ok (m := { (m.withSaved m.runner (arb.stampPlain c)).runnerLeft with
          runner := arb.decision c, runnerHint := arb.decision c }) (moveState_of_some hnext),
        bind_of_ok (tally_apply _ _), bind_of_ok (note_apply _ _ _)]
      exact (hresume _).symm ▸ .switched hcheck hr hx

/-- **When a switch goes through**: it is the executor's, and its decision is another thread that is
idle. -/
theorem switch_ok_iff (hb : m.table.Balanced m.captured m.runner) :
    (∃ r m', arb.switch tid c m = .ok r m') ↔ Context.reg c arb.roleReg = 1 ∧ m.executor = tid ∧
      m.runner ≠ .nobody ∧ arb.decision c ≠ m.runner ∧
      m.table.state? (arb.decision c) = some .idle := by
  have ho : Switches arb tid c m (arb.switch tid c m) := switch_outcome hb
  generalize arb.switch tid c m = r at ho
  cases ho with
  | refused hbad =>
    refine iff_of_false (error_ne_ok _ _) fun ⟨hrole, he, _, hne, hidle⟩ => ?_
    rw [checkSwitch_of hb.nobody_unknown hrole he hne hidle] at hbad
    nomatch hbad
  | leaderless _ hr => exact iff_of_false (error_ne_ok _ _) fun h => h.2.2.1 hr
  | switched hcheck hr =>
    obtain ⟨hrole, he, hne, hidle⟩ := of_checkSwitch hcheck
    exact iff_of_true ⟨_, _, rfl⟩ ⟨hrole, he, hr, hne, hidle⟩

end Arbiter

end SoleRunner
