import Mathlib.Tactic.Simps.Basic
import SoleRunner.Proofs.Soundness

/-!
# Proofs/Steps — the steps of a critical section, at a ledger whose views are known

Each step that a handler is made of has an equation here for each of its outcomes, stated through the
two views of the table.  The longer steps end in a named ledger: `Ledger.joined` when a thread joins the
captured ones, `Ledger.replaced` when the scheduler's choice runs instead of the runner.
-/

namespace SoleRunner

namespace Ledger

variable {C σ : Type}

/-- The ledger with `c` as the saved context of `tid`. -/
@[simps permits runner executor owesUncapture]
def withSaved (m : Ledger C σ) (tid : ThreadId) (c : C) : Ledger C σ :=
  { m with table := m.table.save tid c }

/-- The ledger with another log. -/
@[simps table permits runner executor owesUncapture]
def logged (m : Ledger C σ) (log : Array Log.Entry) : Ledger C σ := { m with log }

/-- The ledger once the permit of `tid`, if there was one, has been taken. -/
@[simps table permits runner executor owesUncapture]
def woken (m : Ledger C σ) (tid : ThreadId) : Ledger C σ :=
  { m with permits := m.permits.setIfInBounds tid.index false }

@[simp] theorem capacity_withSaved (m : Ledger C σ) (tid : ThreadId) (c : C) :
    (m.withSaved tid c).table.capacity = m.table.capacity := Table.capacity_save

theorem inside_withSaved {m : Ledger C σ} {tid u : ThreadId} {c : C} :
    (m.withSaved tid c).table.Inside u ↔ m.table.Inside u := Table.inside_congr Table.state?_save

theorem outside_withSaved {m : Ledger C σ} {tid u : ThreadId} {c : C} :
    (m.withSaved tid c).table.Outside u ↔ m.table.Outside u := Table.outside_congr Table.state?_save

@[simp] theorem withSaved_withSaved (m : Ledger C σ) (tid : ThreadId) (c d : C) :
    (m.withSaved tid c).withSaved tid d = m.withSaved tid d := by
  simp only [withSaved, Table.save_save]

/-- Contexts of two threads can be saved in either order. -/
theorem withSaved_comm {tid u : ThreadId} (h : tid ≠ u) (m : Ledger C σ) (c d : C) :
    (m.withSaved tid c).withSaved u d = (m.withSaved u d).withSaved tid c := by
  simp only [withSaved, Table.save_comm h]

/-- **The ledger once `tid` has joined the captured threads**: it runs if it is the first, and is idle
otherwise. -/
@[simps permits runner executor owesUncapture]
def joined (m : Ledger C σ) (p : Scheduler C σ) (tid : ThreadId) : Ledger C σ :=
  { m with
    table := m.table.mark tid (if m.captured = 0 then .running else .idle)
    captured := m.captured + 1
    runner := if m.captured = 0 then tid else m.runner
    runnerHint := if m.captured = 0 then tid else m.runnerHint
    stats := { m.stats with captures := m.stats.captures + 1 }
    schedulerState := p.joined tid (m.captured == 0) m.schedulerState }

/-- **The ledger once `next` runs instead of the runner**, who goes on uncaptured with context `c`; the
scheduler has been left in state `s`. -/
@[simps permits runner executor owesUncapture]
def replaced (m : Ledger C σ) (next : ThreadId) (c : C) (s : σ) : Ledger C σ :=
  { m with
    table := ((m.table.save m.runner c).mark m.runner .uncaptured).mark next .running
    captured := m.captured - 1
    runner := next
    runnerHint := next
    stats := { m.stats with uncaptures := m.stats.uncaptures + 1 }
    schedulerState := s }

/-- When the runner is replaced, its context is saved, whatever was saved before. -/
@[simp] theorem withSaved_replaced (m : Ledger C σ) (next : ThreadId) (c d : C) (s : σ) :
    (m.withSaved m.runner c).replaced next d s = m.replaced next d s := by
  simp only [replaced, withSaved, Table.save_save]

section

variable {m : Ledger C σ} {next u : ThreadId} {c : C} {s : σ}

/-- **Replacing the runner by an idle thread** leaves the table balanced, with one captured less. -/
theorem replaced_balanced (h : m.table.Balanced m.captured m.runner) (hr : m.runner ≠ .nobody)
    (hn : m.table.state? next = some .idle) (c : C) (s : σ) :
    (m.replaced next c s).table.Balanced (m.replaced next c s).captured (m.replaced next c s).runner :=
  Table.Balanced.markNext (s := .uncaptured) h.save hr (by decide) (Table.state?_save.trans hn)

/-- It is about two threads only. -/
theorem state?_replaced_of_ne (hn : u ≠ next) (hr : u ≠ m.runner) :
    (m.replaced next c s).table.state? u = m.table.state? u := by
  rw [replaced, Table.state?_mark_of_ne hn, Table.state?_mark_of_ne hr, Table.state?_save]

/-- The runner that has been replaced is outside the program. -/
theorem state?_replaced_runner {st : ThreadState} (hne : next ≠ m.runner)
    (hs : m.table.state? m.runner = some st) :
    (m.replaced next c s).table.state? m.runner = some .uncaptured := by
  rw [replaced, Table.state?_mark_of_ne hne.symm, Table.state?_mark_self (Table.state?_save.trans hs)]

theorem state?_replaced_next {st : ThreadState} (hne : next ≠ m.runner)
    (hs : m.table.state? next = some st) :
    (m.replaced next c s).table.state? next = some .running := by
  rw [replaced, Table.state?_mark_self]
  exact (Table.state?_mark_of_ne hne).trans (Table.state?_save.trans hs)

/-- Replacing the runner takes it out of the program, and nobody else. -/
theorem inside_replaced (hb : m.table.Balanced m.captured m.runner) (hr : m.runner ≠ .nobody)
    (hn : m.table.state? next = some .idle) :
    (m.replaced next c s).table.Inside u ↔ m.table.Inside u ∧ u ≠ m.runner := by
  have hne := hb.ne_runner_of_idle hn
  rcases eq_or_ne u next with rfl | h1
  · exact iff_of_true ⟨_, state?_replaced_next hne hn, by decide⟩ ⟨⟨_, hn, by decide⟩, hne⟩
  rcases eq_or_ne u m.runner with rfl | h2
  · have hout : (m.replaced next c s).table.Outside m.runner :=
      state?_replaced_runner hne (hb.runner_running hr)
    exact iff_of_false hout.not_inside (fun h => h.2 rfl)
  · rw [Table.inside_congr (state?_replaced_of_ne h1 h2)]
    exact (and_iff_left h2).symm

/-- The former runner is outside then, and nobody else goes out or in. -/
theorem outside_replaced (hb : m.table.Balanced m.captured m.runner) (hr : m.runner ≠ .nobody)
    (hn : m.table.state? next = some .idle) :
    (m.replaced next c s).table.Outside u ↔ m.table.Outside u ∨ u = m.runner := by
  have hne := hb.ne_runner_of_idle hn
  rcases eq_or_ne u next with rfl | h1
  · exact iff_of_false (Table.not_outside_of_state (state?_replaced_next hne hn) (by decide))
      (not_or.mpr ⟨Table.not_outside_of_state hn (by decide), hne⟩)
  rcases eq_or_ne u m.runner with rfl | h2
  · exact iff_of_true (state?_replaced_runner hne (hb.runner_running hr)) (.inr rfl)
  · rw [Table.outside_congr (state?_replaced_of_ne h1 h2)]
    exact (or_iff_left h2).symm

@[simp] theorem capacity_replaced (m : Ledger C σ) (next : ThreadId) (c : C) (s : σ) :
    (m.replaced next c s).table.capacity = m.table.capacity := by
  simp only [replaced, Table.capacity_mark, Table.capacity_save]

/-! ## Permits -/

theorem hasPermit_of_eq {m n : Ledger C σ} (h : n.permits = m.permits) {u : ThreadId}
    (hp : m.hasPermit u) : n.hasPermit u := by
  rwa [hasPermit, h]

/-- A permit that is posted is there. -/
theorem hasPermit_post_self {m n : Ledger C σ} {tid : ThreadId} (h : tid.index < m.permits.size)
    (hn : n.permits = m.permits.setIfInBounds tid.index true) : n.hasPermit tid := by
  rw [hasPermit, hn, Array.getElem?_setIfInBounds_self_of_lt h]
  rfl

/-- Posting takes no permit away. -/
theorem hasPermit_post (tid : ThreadId) {m n : Ledger C σ} {u : ThreadId} (h : m.hasPermit u)
    (hn : n.permits = m.permits.setIfInBounds tid.index true) : n.hasPermit u := by
  rcases eq_or_ne u tid with rfl | hu
  · refine hasPermit_post_self (m := m) ?_ hn
    refine Nat.lt_of_not_le fun hle => ?_
    rw [hasPermit, Array.getElem?_eq_none hle] at h
    nomatch h
  · rw [hasPermit, hn, Array.getElem?_setIfInBounds_ne fun e => hu (ThreadId.index_inj.mp e).symm]
    exact h

/-- A permit that is there after a post was there before, or is the one that was posted. -/
theorem of_hasPermit_post {m n : Ledger C σ} {tid u : ThreadId} (h : n.hasPermit u)
    (hn : n.permits = m.permits.setIfInBounds tid.index true) : u = tid ∨ m.hasPermit u := by
  rcases eq_or_ne u tid with rfl | hu
  · exact .inl rfl
  · rw [hasPermit, hn, Array.getElem?_setIfInBounds_ne fun e => hu (ThreadId.index_inj.mp e).symm] at h
    exact .inr h

/-- Whoever takes its permit takes nobody else's. -/
theorem hasPermit_take_of_ne {m n : Ledger C σ} {tid u : ThreadId} (hu : u ≠ tid)
    (hn : n.permits = m.permits.setIfInBounds tid.index false) : n.hasPermit u = m.hasPermit u := by
  rw [hasPermit, hn, Array.getElem?_setIfInBounds_ne fun e => hu (ThreadId.index_inj.mp e).symm,
    hasPermit]

end

end Ledger

namespace Critical

variable {C σ α β : Type} {m m' : Ledger C σ} {tid : ThreadId} {s old new : ThreadState} {c : C}

/-- A step that succeeds is followed by the next one on what it leaves. -/
theorem bind_of_ok {x : Critical C σ α} {a : α} (h : x m = .ok a m') (f : α → Critical C σ β) :
    (x >>= f) m = f a m' := by rw [bind_apply, h]

/-- A step that fails ends the section. -/
theorem bind_of_error {x : Critical C σ α} {e : Fault} (h : x m = .error e m')
    (f : α → Critical C σ β) : (x >>= f) m = .error e m' := by rw [bind_apply, h]

/-- The ledger that a section leaves behind, whether it succeeds or fails. -/
def left : EStateM.Result Fault (Ledger C σ) α → Ledger C σ
  | .ok _ m => m
  | .error _ m => m

@[simp] theorem left_ok (a : α) (m : Ledger C σ) : left (.ok a m) = m := rfl

@[simp] theorem left_error (e : Fault) (m : Ledger C σ) :
    left (.error e m : EStateM.Result Fault (Ledger C σ) α) = m := rfl

theorem error_ne_ok (e : Fault) (m : Ledger C σ) :
    ¬ ∃ a m', (.error e m : EStateM.Result Fault (Ledger C σ) α) = .ok a m' := by
  rintro ⟨a, m', h⟩
  nomatch h

/-- What is made of an answer does not matter to the ledger. -/
theorem left_answer (P : Ledger C σ → Prop) {x : Critical C σ α} {f : α → β} (h : P (left (x m))) :
    P (left ((x >>= fun a => pure (f a)) m)) := by
  rw [bind_apply]
  cases hx : x m <;> rw [hx] at h <;> exact h

/-- What succeeds with an answer made of another one. -/
theorem of_answer {x : Critical C σ α} {f : α → β} {b : β}
    (h : (x >>= fun a => pure (f a)) m = .ok b m') : ∃ a, x m = .ok a m' ∧ b = f a := by
  rw [bind_apply] at h
  cases hx : x m with
  | ok a n =>
    rw [hx] at h
    cases h
    exact ⟨a, rfl, rfl⟩
  | error e n =>
    rw [hx] at h
    nomatch h

/-- What fails although an answer would have been made of it. -/
theorem of_answer_error {x : Critical C σ α} {f : α → β} {e : Fault}
    (h : (x >>= fun a => pure (f a)) m = .error e m') : x m = .error e m' := by
  rw [bind_apply] at h
  cases hx : x m with
  | ok a n =>
    rw [hx] at h
    nomatch h
  | error e n =>
    rw [hx] at h
    cases h
    rfl

theorem left_takePermit (tid : ThreadId) (m : Ledger C σ) : left (takePermit tid m) = m.woken tid := rfl

theorem expect_of {p : Prop} [Decidable p] (h : p) (check : Check) :
    expect p check m = .ok () m := by rw [expect_apply, if_pos h]

theorem expect_of_not {p : Prop} [Decidable p] (h : ¬p) (check : Check) :
    expect p check m = .error (.broken check) m := by rw [expect_apply, if_neg h]

theorem stateOf_of_some (h : m.table.state? tid = some s) : stateOf tid m = .ok s m := by
  rw [stateOf_apply, Table.state_of_some h]

theorem stateOf_of_none (h : m.table.state? tid = none) :
    stateOf tid m = .error (.capacityExceeded tid m.table.capacity) m := by
  rw [stateOf_apply, Table.state_of_none h]

theorem contextOf_of_saved (h : m.table.saved? tid = some c) : contextOf tid m = .ok c m := by
  rw [contextOf_apply, Table.context_of_saved h]

theorem contextOf_of_none (h : m.table.state? tid = none) :
    contextOf tid m = .error (.capacityExceeded tid m.table.capacity) m := by
  rw [contextOf_apply, Table.context_of_none h]

theorem setState_of_some (h : m.table.state? tid = some old) :
    setState tid s m = .ok () { m with table := m.table.mark tid s } := by
  rw [setState, updateTable_apply, Table.setState_of_some h]

theorem moveState_of_some (h : m.table.state? tid = some old) :
    moveState tid old new m = .ok () { m with table := m.table.mark tid new } := by
  rw [moveState, updateTable_apply, Table.move_of_some h]

theorem storeContext_of_some (h : m.table.state? tid = some s) :
    storeContext tid c m = .ok () (m.withSaved tid c) := by
  rw [storeContext, updateTable_apply, Table.store_of_some h]
  rfl

theorem storeContext_of_none (h : m.table.state? tid = none) :
    storeContext tid c m = .error (.capacityExceeded tid m.table.capacity) m := by
  rw [storeContext, updateTable_apply, Table.store_of_none h]

theorem modifyContext_of_saved (h : m.table.saved? tid = some c) (f : C → C) :
    modifyContext tid f m = .ok () (m.withSaved tid (f c)) := by
  rw [modifyContext, updateTable_apply, Table.modifyContext_of_saved h]
  rfl

theorem modifyContext_of_unsaved (h : m.table.state? tid = some s) (hn : m.table.saved? tid = none)
    (f : C → C) : modifyContext tid f m = .error (.broken .contextSaved) m := by
  rw [modifyContext, updateTable_apply, Table.modifyContext_of_unsaved h hn]

end Critical

namespace Arbiter

open Critical

variable {C σ : Type} {arb : Arbiter C σ} {m : Ledger C σ} {tid next : ThreadId} {c d : C} {s : σ}

/-- A message about a hand-off changes the log at most. -/
theorem noteHandOff_apply (text : String) (m : Ledger C σ) :
    ∃ log, arb.noteHandOff text m = .ok () { m with log } := by
  unfold noteHandOff
  split
  · exact ⟨_, rfl⟩
  · exact ⟨m.log, rfl⟩

/-- To wake a thread is to post its permit, and perhaps to log that. -/
theorem wake_apply (tid : ThreadId) (m : Ledger C σ) :
    ∃ log, arb.wake tid m =
      .ok () { m with permits := m.permits.setIfInBounds tid.index true, log } := by
  obtain ⟨log, h⟩ := arb.noteHandOff_apply s!"waking thread {tid}" m
  exact ⟨log, by rw [wake, bind_apply, h]; rfl⟩

/-! ## Replacing the runner -/

/-- **An idle thread may be chosen.** -/
theorem checkChoice_of_idle {t : Table C} (hn : t.state? .nobody = none)
    (h : t.state? next = some .idle) : checkChoice t next = .ok () := by
  have hne : next ≠ .nobody := by
    rintro rfl
    rw [hn] at h
    nomatch h
  have hc : t.contains next = true := by
    obtain ⟨slot, hs, -⟩ := Option.map_eq_some_iff.mp h
    simpa [Table.contains, hne] using Table.slot?_eq_some_lt hs
  rw [checkChoice, hc, Table.state_of_some h]
  rfl

/-- Every choice that is refused breaks the scheduler's contract. -/
theorem checkChoice_of_not_idle {t : Table C} (h : t.state? next ≠ some .idle) :
    ∃ v, checkChoice t next = .error (.violation v) := by
  unfold checkChoice
  split
  · exact ⟨_, rfl⟩
  next hc =>
    rw [Bool.not_eq_true', Bool.not_eq_false] at hc
    obtain ⟨st, hs⟩ := Table.exists_state?_of_contains hc
    rw [Table.state_of_some hs]
    cases st with
    | idle => exact absurd hs h
    | uncaptured | blocked | running => exact ⟨_, rfl⟩

/-- A choice is refused for two reasons only. -/
theorem of_checkChoice_error {t : Table C} {e : Fault} (h : checkChoice t next = .error e) :
    e = .violation (.outOfRange next t.capacity) ∨ ∃ st, e = .violation (.notIdle next st) := by
  unfold checkChoice at h
  split at h
  · cases h
    exact .inl rfl
  next hc =>
    rw [Bool.not_eq_true', Bool.not_eq_false] at hc
    obtain ⟨st, hs⟩ := Table.exists_state?_of_contains hc
    rw [Table.state_of_some hs] at h
    cases st with
    | idle => nomatch h
    | uncaptured | blocked | running =>
      cases h
      exact .inr ⟨_, rfl⟩

/-- The scheduler is shown the runner's saved context and may edit it. -/
theorem askScheduler_apply (hc : m.table.saved? m.runner = some c)
    (ha : arb.scheduler.choose m.runner c m.schedulerState = (next, d, s)) :
    arb.askScheduler m = .ok next { m.withSaved m.runner d with schedulerState := s } := by
  simp only [askScheduler, bind_apply, get_apply, contextOf_of_saved hc, ha,
    modifyContext_of_saved hc, tell_apply, pure_apply]

/-- Without a runner there is no context to show. -/
theorem replaceRunner_without_runner (hn : m.table.state? .nobody = none) (hr : m.runner = .nobody) :
    arb.replaceRunner m = .error (.capacityExceeded .nobody m.table.capacity) m := by
  have hask : arb.askScheduler m = .error (.capacityExceeded .nobody m.table.capacity) m := by
    rw [← hr] at hn ⊢
    simp only [askScheduler, bind_apply, get_apply, contextOf_of_none hn]
  simp only [replaceRunner, bind_apply, get_apply, hask]

/-- The scheduler's answer is refused: what it did to the runner's context and to itself stays. -/
theorem replaceRunner_of_check {e : Fault} (hc : m.table.saved? m.runner = some c)
    (ha : arb.scheduler.choose m.runner c m.schedulerState = (next, d, s))
    (he : checkChoice (m.table.save m.runner d) next = .error e) :
    arb.replaceRunner m = .error e { m.withSaved m.runner d with schedulerState := s } := by
  simp only [replaceRunner, bind_apply, get_apply, askScheduler_apply hc ha, Ledger.withSaved, he,
    ofExcept_error, throw_apply]

/-- **An answer that is not an idle thread is refused**; what the scheduler has edited stays edited. -/
theorem replaceRunner_refused (hc : m.table.saved? m.runner = some c)
    (ha : arb.scheduler.choose m.runner c m.schedulerState = (next, d, s))
    (hn : m.table.state? next ≠ some .idle) :
    ∃ v, arb.replaceRunner m =
      .error (.violation v) { m.withSaved m.runner d with schedulerState := s } := by
  obtain ⟨v, hv⟩ := checkChoice_of_not_idle (t := m.table.save m.runner d)
    (by rwa [Table.state?_save])
  exact ⟨v, replaceRunner_of_check hc ha hv⟩

/-- **An idle thread that is chosen replaces the runner.** -/
theorem replaceRunner_chosen (h : m.table.Balanced m.captured m.runner) (hr : m.runner ≠ .nobody)
    (hc : m.table.saved? m.runner = some c)
    (ha : arb.scheduler.choose m.runner c m.schedulerState = (next, d, s))
    (hn : m.table.state? next = some .idle) :
    arb.replaceRunner m = .ok () (m.replaced next d s) := by
  have hne := h.ne_runner_of_idle hn
  have hpos : 0 < m.captured := h.captured_pos_of_runner hr
  have hcheck : checkChoice (m.table.save m.runner d) next = .ok () :=
    checkChoice_of_idle (by rw [Table.state?_save, h.nobody_unknown]) (by rwa [Table.state?_save])
  have hrun : (m.table.save m.runner d).state? m.runner = some .running := by
    rw [Table.state?_save, h.runner_running hr]
  have hidle : ((m.table.save m.runner d).mark m.runner .uncaptured).state? next = some .idle := by
    rw [Table.state?_mark_of_ne hne, Table.state?_save, hn]
  simp only [replaceRunner, bind_apply, get_apply, askScheduler_apply hc ha, Ledger.withSaved, hcheck,
    ofExcept_ok, pure_apply, expect_of hpos, setCaptured_apply, moveState, updateTable_apply,
    Table.move_of_some hrun, setRunner_apply, Table.move_of_some hidle, tally_apply]
  rfl

/-- What replacing the runner needs stays so when the runner's context is saved. -/
theorem replaceRunner_withSaved (hb : m.table.Balanced m.captured m.runner) (hr : m.runner ≠ .nobody)
    {d : C} {next : ThreadId} {s : σ}
    (ha : arb.scheduler.choose m.runner c m.schedulerState = (next, d, s))
    (hnext : m.table.state? next = some .idle) :
    arb.replaceRunner (m.withSaved m.runner c) = .ok () (m.replaced next d s) := by
  rw [← Ledger.withSaved_replaced m next c d s]
  exact replaceRunner_chosen (m := m.withSaved m.runner c) hb.save hr
    (Table.saved?_save_self (hb.runner_running hr)) ha
    (by rw [Ledger.withSaved, Table.state?_save, hnext])

/-- The same after the runner's context has been saved, by the fault of the check. -/
theorem replaceRunner_withSaved_of_check (hb : m.table.Balanced m.captured m.runner)
    (hr : m.runner ≠ .nobody) {d : C} {next : ThreadId} {s : σ} {e : Fault}
    (ha : arb.scheduler.choose m.runner c m.schedulerState = (next, d, s))
    (he : checkChoice (m.table.save m.runner d) next = .error e) :
    arb.replaceRunner (m.withSaved m.runner c) =
      .error e { m.withSaved m.runner d with schedulerState := s } := by
  have hc : (m.withSaved m.runner c).table.saved? m.runner = some c :=
    Table.saved?_save_self (hb.runner_running hr)
  have hrep := replaceRunner_of_check (m := m.withSaved m.runner c) (e := e) hc ha
    (by rwa [Ledger.withSaved, Table.save_save])
  simpa only [Ledger.withSaved, Table.save_save] using hrep

/-- The same, by what is wrong with the answer. -/
theorem replaceRunner_withSaved_refused (hb : m.table.Balanced m.captured m.runner)
    (hr : m.runner ≠ .nobody) {d : C} {next : ThreadId} {s : σ}
    (ha : arb.scheduler.choose m.runner c m.schedulerState = (next, d, s))
    (hnext : m.table.state? next ≠ some .idle) :
    ∃ v, arb.replaceRunner (m.withSaved m.runner c) =
      .error (.violation v) { m.withSaved m.runner d with schedulerState := s } := by
  obtain ⟨v, hv⟩ := checkChoice_of_not_idle (t := m.table.save m.runner d)
    (by rwa [Table.state?_save])
  exact ⟨v, replaceRunner_withSaved_of_check hb hr ha hv⟩

/-! ## Resuming a saved context -/

/-- Whoever is resumed gets its saved context, stamped, and the stamped one stays saved. -/
theorem resumeStamped_of_saved (hc : m.table.saved? tid = some c) (role : Role) (stamp : C → C) :
    resumeStamped tid role stamp m = .ok ⟨tid, role, stamp c⟩ (m.withSaved tid (stamp c)) := by
  obtain ⟨s, hs⟩ := Table.state?_of_saved? hc
  have hc' : (m.withSaved tid (stamp c)).table.saved? tid = some (stamp c) :=
    Table.saved?_save_self hs
  simp only [resumeStamped, bind_apply, modifyContext_of_saved hc, contextOf_of_saved hc', pure_apply]

variable [Context C]

/-- The marks of the executor that runs `tid`: 1 in the one register, and in the other its index. -/
theorem stampExecutor_eq (arb : Arbiter C σ) (h : tid ≠ .nobody) (c : C) : arb.stampExecutor tid c =
    Context.setReg (Context.setReg c arb.roleReg 1) arb.choiceReg tid.raw.toUInt64 := by
  rw [stampExecutor, ThreadId.toReg_of_ne h]

/-- The marks of any other context: 0 in the one register, and in the other every bit. -/
theorem stampPlain_eq (arb : Arbiter C σ) (c : C) : arb.stampPlain c =
    Context.setReg (Context.setReg c arb.roleReg 0) arb.choiceReg 0xFFFFFFFFFFFFFFFF := rfl

/-- **The runner's saved context is resumed** by an executor. -/
theorem resumeRunner_of_saved (hr : m.runner ≠ .nobody) (hc : m.table.saved? m.runner = some c) :
    arb.resumeRunner m = .ok ⟨m.runner, .executor, arb.stampExecutor m.runner c⟩
      (m.withSaved m.runner (arb.stampExecutor m.runner c)) := by
  simp only [resumeRunner, bind_apply, get_apply, expect_of hr, resumeStamped_of_saved hc]

theorem resumeRunner_without_runner (hr : m.runner = .nobody) :
    arb.resumeRunner m = .error (.broken .resumeHasRunner) m := by
  simp only [resumeRunner, bind_apply, get_apply, expect_of_not (not_not_intro hr)]

/-- **A thread's own saved context is resumed** by itself. -/
theorem resumeOwn_of_saved (hc : m.table.saved? tid = some c) :
    arb.resumeOwn tid m =
      .ok ⟨tid, .uncaptured, arb.stampPlain c⟩ (m.withSaved tid (arb.stampPlain c)) :=
  resumeStamped_of_saved hc _ _

theorem resumeOwn_of_unsaved {st : ThreadState} (hs : m.table.state? tid = some st)
    (hn : m.table.saved? tid = none) :
    arb.resumeOwn tid m = .error (.broken .contextSaved) m := by
  simp only [resumeOwn, resumeStamped, bind_apply, modifyContext_of_unsaved hs hn]

end Arbiter

end SoleRunner
