import SoleRunner.Arbiter.Audit
import SoleRunner.Proofs.TableView

/-!
# Proofs/Soundness — what always holds of a ledger between critical sections

A table, a captured count and a runner are *balanced* (`Table.Balanced`) if the count is right and the
runner is the one running thread; `Balanced` survives each of the few ways in which threads change
state, also inside a critical section.  A ledger is *sound* (`Ledger.Sound`) if moreover its executor is
inside the program and its hints are true.  Nothing here asks what a thread's call was or what a
scheduler answered.
-/

namespace SoleRunner

namespace Table

variable {C : Type} {t : Table C} {n : Nat} {runner next tid : ThreadId} {s : ThreadState} {c : C}

/-! ## Inside and outside the program -/

/-- `tid` is inside the program: captured or blocked. -/
def Inside (t : Table C) (tid : ThreadId) : Prop := ∃ s, t.state? tid = some s ∧ s ≠ .uncaptured

/-- `tid` is in the table, and outside the program. -/
def Outside (t : Table C) (tid : ThreadId) : Prop := t.state? tid = some .uncaptured

theorem inside_of_state (h : t.state? tid = some s) (hs : s ≠ .uncaptured) : t.Inside tid := ⟨s, h, hs⟩

theorem Outside.not_inside (h : t.Outside tid) : ¬ t.Inside tid := by
  rintro ⟨s, hs, hne⟩
  exact hne (Option.some.inj (hs.symm.trans h))

theorem not_outside_of_state (h : t.state? tid = some s) (hs : s ≠ .uncaptured) : ¬ t.Outside tid :=
  fun ho => ho.not_inside ⟨s, h, hs⟩

theorem inside_congr {t' : Table C} {u : ThreadId} (h : t'.state? u = t.state? u) :
    t'.Inside u ↔ t.Inside u := by
  rw [Inside, Inside, h]

theorem outside_congr {t' : Table C} {u : ThreadId} (h : t'.state? u = t.state? u) :
    t'.Outside u ↔ t.Outside u := by
  rw [Outside, Outside, h]

theorem Inside.save {u : ThreadId} (h : t.Inside u) : (t.save tid c).Inside u :=
  (inside_congr state?_save).mpr h

/-- A thread inside stays there when a thread changes its state, unless it goes out itself. -/
theorem Inside.mark {u : ThreadId} (h : t.Inside u) (hs : s ≠ .uncaptured ∨ u ≠ tid) :
    (t.mark tid s).Inside u := by
  obtain ⟨old, hold, hne⟩ := h
  rcases eq_or_ne u tid with rfl | e
  · exact ⟨s, state?_mark_self hold, hs.resolve_right (not_not_intro rfl)⟩
  · exact ⟨old, (state?_mark_of_ne e).trans hold, hne⟩

/-- A thread that moves about inside changes nothing about who is there. -/
theorem inside_mark_of_inside {u : ThreadId} (h : t.Inside tid) (hs : s ≠ .uncaptured) :
    (t.mark tid s).Inside u ↔ t.Inside u := by
  obtain ⟨old, hold, hne⟩ := h
  rcases eq_or_ne u tid with rfl | e
  · exact iff_of_true ⟨s, state?_mark_self hold, hs⟩ ⟨old, hold, hne⟩
  · exact inside_congr (state?_mark_of_ne e)

theorem outside_mark_of_inside {u : ThreadId} (h : t.Inside tid) (hs : s ≠ .uncaptured) :
    (t.mark tid s).Outside u ↔ t.Outside u := by
  obtain ⟨old, hold, hne⟩ := h
  rcases eq_or_ne u tid with rfl | e
  · exact iff_of_false (not_outside_of_state (state?_mark_self hold) hs) (not_outside_of_state hold hne)
  · exact outside_congr (state?_mark_of_ne e)

/-! ## Balance -/

/-- A thread that has a saved context may go inside. -/
theorem saved_mark_of_saved
    (h : ∀ u s, t.state? u = some s → s ≠ .uncaptured → ∃ c, t.saved? u = some c)
    (hc : ∃ c, t.saved? tid = some c) (new : ThreadState) (u : ThreadId) (s : ThreadState)
    (hs : (t.mark tid new).state? u = some s) (hne : s ≠ .uncaptured) :
    ∃ c, (t.mark tid new).saved? u = some c := by
  rw [saved?_mark]
  rcases eq_or_ne u tid with rfl | hu
  · exact hc
  · rw [state?_mark_of_ne hu] at hs
    exact h u s hs hne

/-- **The captured count is right, and the runner is the one running thread.** -/
structure Balanced (t : Table C) (captured : Nat) (runner : ThreadId) : Prop where
  captured_eq : captured = t.capturedCount
  /-- A runner is in the table and is the one running thread; without a runner nobody runs. -/
  running_iff : ∀ tid, t.state? tid = some .running ↔ tid = runner ∧ runner ≠ .nobody
  runner_eq_nobody : captured = 0 → runner = .nobody
  /-- Every thread inside the program has a saved context. -/
  saved : ∀ tid s, t.state? tid = some s → s ≠ .uncaptured → ∃ c, t.saved? tid = some c
  /-- The table is too small for nobody to have a slot. -/
  nobody_unknown : t.state? .nobody = none

namespace Balanced

theorem runner_running (h : t.Balanced n runner) (hr : runner ≠ .nobody) :
    t.state? runner = some .running := (h.running_iff runner).mpr ⟨rfl, hr⟩

theorem runner_inside (h : t.Balanced n runner) (hr : runner ≠ .nobody) : t.Inside runner :=
  inside_of_state (h.runner_running hr) (by decide)

theorem runner_eq_of_running (h : t.Balanced n runner) (hs : t.state? tid = some .running) :
    tid = runner := ((h.running_iff tid).mp hs).1

theorem runner_ne_nobody_of_running (h : t.Balanced n runner) (hs : t.state? tid = some .running) :
    runner ≠ .nobody := ((h.running_iff tid).mp hs).2

theorem ne_nobody (h : t.Balanced n runner) (hs : t.state? tid = some s) : tid ≠ .nobody := by
  rintro rfl
  rw [h.nobody_unknown] at hs
  nomatch hs

/-- Whoever does not run is not the runner. -/
theorem ne_runner_of_state (h : t.Balanced n runner) (hs : t.state? tid = some s) (hne : s ≠ .running) :
    tid ≠ runner := by
  rintro rfl
  have hrun := h.runner_running (h.ne_nobody hs)
  exact hne (Option.some.inj (hs.symm.trans hrun))

theorem ne_runner_of_idle (h : t.Balanced n runner) (hs : t.state? tid = some .idle) :
    tid ≠ runner := h.ne_runner_of_state hs (by decide)

theorem ne_runner_of_outside (h : t.Balanced n runner) (hs : t.Outside tid) : tid ≠ runner :=
  h.ne_runner_of_state hs (by decide)

theorem captured_pos (h : t.Balanced n runner) (hs : t.state? tid = some s) (hc : s.isCaptured) :
    0 < n := h.captured_eq ▸ capturedCount_pos hs hc

theorem captured_pos_of_runner (h : t.Balanced n runner) (hr : runner ≠ .nobody) : 0 < n :=
  h.captured_pos (h.runner_running hr) rfl

/-- An idle thread beside a runner is one of two captured threads at least. -/
theorem one_lt_captured (h : t.Balanced n runner) (hidle : t.state? tid = some .idle)
    (hr : runner ≠ .nobody) : 1 < n := by
  have hne := h.ne_runner_of_idle hidle
  have hrun : (t.mark tid .blocked).state? runner = some .running :=
    (state?_mark_of_ne hne.symm).trans (h.runner_running hr)
  have hpos := capturedCount_pos hrun rfl
  have hcount := capturedCount_mark hidle .blocked
  have heq := h.captured_eq
  simp only [ThreadState.isCaptured, Bool.false_eq_true, if_false, if_true] at hcount
  omega

/-- The runner has a saved context. -/
theorem runner_saved (h : t.Balanced n runner) (hr : runner ≠ .nobody) :
    ∃ c, t.saved? runner = some c := h.saved _ _ (h.runner_running hr) (by decide)

/-- A table that has no slot for nobody is not longer than there are names. -/
theorem capacity_le (h : t.Balanced n runner) : t.capacity ≤ ThreadId.nobody.index :=
  state?_eq_none_iff.mp h.nobody_unknown

/-- **Nothing is captured** exactly if nobody is idle and nobody runs. -/
theorem captured_eq_zero_iff (h : t.Balanced n runner) :
    n = 0 ↔ ∀ u, t.state? u ≠ some .idle ∧ t.state? u ≠ some .running := by
  constructor
  · rintro rfl u
    exact ⟨fun hu => absurd (h.captured_pos hu rfl) (Nat.lt_irrefl 0),
      fun hu => absurd (h.captured_pos hu rfl) (Nat.lt_irrefl 0)⟩
  · intro hnone
    refine Nat.eq_zero_of_not_pos fun hpos => ?_
    obtain ⟨u, s, hs, hc⟩ := exists_captured h.capacity_le (h.captured_eq ▸ hpos)
    cases s with
    | idle => exact (hnone u).1 hs
    | running => exact (hnone u).2 hs
    | uncaptured => nomatch hc
    | blocked => nomatch hc

/-! ## The ways in which threads change state -/

theorem save (h : t.Balanced n runner) : (t.save tid c).Balanced n runner where
  captured_eq := by rw [capturedCount_save, h.captured_eq]
  running_iff u := by rw [state?_save, h.running_iff]
  runner_eq_nobody := h.runner_eq_nobody
  saved u s hs hne := by
    rw [state?_save] at hs
    rw [saved?_save]
    split
    · rw [hs]; exact ⟨c, rfl⟩
    · exact h.saved u s hs hne
  nobody_unknown := by rw [state?_save, h.nobody_unknown]

/-- The first thread that is captured runs. -/
theorem markFirst (h : t.Balanced 0 runner) (hs : t.state? tid = some .uncaptured)
    (hc : t.saved? tid = some c) : (t.mark tid .running).Balanced 1 tid where
  captured_eq := by
    have hcount := capturedCount_mark hs .running
    have hzero := h.captured_eq
    simp only [ThreadState.isCaptured, Bool.false_eq_true, if_false, if_true] at hcount
    omega
  running_iff u := by
    rcases eq_or_ne u tid with rfl | hu
    · rw [state?_mark_self hs]
      simpa using h.ne_nobody hs
    · rw [state?_mark_of_ne hu, h.running_iff, h.runner_eq_nobody rfl]
      simp [hu]
  runner_eq_nobody h0 := absurd h0 (by decide)
  saved := saved_mark_of_saved h.saved ⟨c, hc⟩ .running
  nobody_unknown := by rw [state?_mark_of_ne (h.ne_nobody hs).symm, h.nobody_unknown]

/-- A thread that does not run changes its state, and goes on not to run. -/
theorem markOther {old new : ThreadState} {k : Nat} (h : t.Balanced n runner)
    (hs : t.state? tid = some old) (hold : old ≠ .running) (hnew : new ≠ .running)
    (hc : ∃ c, t.saved? tid = some c)
    (hk : k + (if old.isCaptured then 1 else 0) = n + (if new.isCaptured then 1 else 0))
    (h0 : k = 0 → runner = .nobody) : (t.mark tid new).Balanced k runner where
  captured_eq := by
    have hcount := capturedCount_mark hs new
    have hn := h.captured_eq
    omega
  running_iff u := by
    rcases eq_or_ne u tid with rfl | hu
    · have hold' : t.state? u ≠ some .running := by simpa [hs] using hold
      rw [state?_mark_self hs, ← h.running_iff]
      simp [hnew, hold']
    · rw [state?_mark_of_ne hu, h.running_iff]
  runner_eq_nobody := h0
  saved := saved_mark_of_saved h.saved hc new
  nobody_unknown := by rw [state?_mark_of_ne (h.ne_nobody hs).symm, h.nobody_unknown]

/-- The runner that stops running counts as before unless it is captured no longer. -/
theorem captured_of_markNext (h : t.Balanced n runner) (hr : runner ≠ .nobody) (s : ThreadState)
    (hn : t.state? next = some .idle) :
    (if s.isCaptured then n else n - 1) =
      ((t.mark runner s).mark next .running).capturedCount := by
  have hidle : (t.mark runner s).state? next = some .idle := by
    rw [state?_mark_of_ne (h.ne_runner_of_idle hn), hn]
  have hleft := capturedCount_mark (h.runner_running hr) s
  have hright := capturedCount_mark hidle .running
  have hpos := h.captured_pos_of_runner hr
  have hcount := h.captured_eq
  simp only [ThreadState.isCaptured, if_true] at hleft hright
  cases s <;>
    simp only [ThreadState.isCaptured, if_true, Bool.false_eq_true, if_false] at hleft ⊢ <;> omega

/-- The runner stops running, and an idle thread runs in its place. -/
theorem markNext (h : t.Balanced n runner) (hr : runner ≠ .nobody) (hs : s ≠ .running)
    (hn : t.state? next = some .idle) :
    ((t.mark runner s).mark next .running).Balanced
      (if s.isCaptured then n else n - 1) next where
  captured_eq := h.captured_of_markNext hr s hn
  running_iff u := by
    have hne := h.ne_runner_of_idle hn
    rcases eq_or_ne u next with rfl | hu
    · have hidle : (t.mark runner s).state? u = some .idle := by rw [state?_mark_of_ne hne, hn]
      rw [state?_mark_self hidle]
      simpa using h.ne_nobody hn
    · rw [state?_mark_of_ne hu]
      rcases eq_or_ne u runner with rfl | hur
      · rw [state?_mark_self (h.runner_running hr)]
        simp [hs, hu]
      · rw [state?_mark_of_ne hur, h.running_iff]
        simp [hu, hur]
  runner_eq_nobody h0 := by
    have hidle : (t.mark runner s).state? next = some .idle := by
      rw [state?_mark_of_ne (h.ne_runner_of_idle hn), hn]
    have hpos := capturedCount_pos (state?_mark_self (s := .running) hidle) rfl
    rw [← h.captured_of_markNext hr s hn] at hpos
    exact absurd h0 (Nat.ne_of_gt hpos)
  saved := by
    refine saved_mark_of_saved (saved_mark_of_saved h.saved (h.runner_saved hr) s) ?_ .running
    rw [saved?_mark]
    exact h.saved _ _ hn (by decide)
  nobody_unknown := by
    rw [state?_mark_of_ne (h.ne_nobody hn).symm, state?_mark_of_ne hr.symm, h.nobody_unknown]

/-- The only captured thread runs, and goes out of the program. -/
theorem markLast (h : t.Balanced n runner) (hs : t.state? tid = some .running) (hn : n = 1) :
    (t.mark tid .uncaptured).Balanced 0 .nobody where
  captured_eq := by
    have hcount := capturedCount_mark hs .uncaptured
    have hone := h.captured_eq
    simp only [ThreadState.isCaptured, Bool.false_eq_true, if_false, if_true] at hcount
    omega
  running_iff u := by
    rcases eq_or_ne u tid with rfl | hu
    · rw [state?_mark_self hs]
      simp
    · have hrun : t.state? u ≠ some .running := fun e =>
        hu ((h.runner_eq_of_running e).trans (h.runner_eq_of_running hs).symm)
      rw [state?_mark_of_ne hu]
      simp [hrun]
  runner_eq_nobody _ := rfl
  saved := saved_mark_of_saved h.saved (h.saved tid _ hs (by decide)) .uncaptured
  nobody_unknown := by rw [state?_mark_of_ne (h.ne_nobody hs).symm, h.nobody_unknown]

end Balanced

/-! ## The empty table -/

theorem state?_ofCapacity {k : Nat} :
    (ofCapacity k : Table C).state? tid = if tid.index < k then some .uncaptured else none := by
  unfold state? slot? ofCapacity
  rw [Array.getElem?_replicate]
  split <;> rfl

/-- Nobody is inside yet. -/
theorem not_inside_ofCapacity {k : Nat} : ¬ (ofCapacity k : Table C).Inside tid := by
  rintro ⟨s, hs, hne⟩
  rw [state?_ofCapacity] at hs
  split at hs
  · exact hne (Option.some.inj hs).symm
  · nomatch hs

theorem states_ofCapacity (k : Nat) : (ofCapacity k : Table C).states = List.replicate k .uncaptured := by
  rw [states, ofCapacity, Array.toList_replicate, List.map_replicate]

theorem countOf_ofCapacity (k : Nat) {p : ThreadState → Bool} (hp : p .uncaptured = false) :
    (ofCapacity k : Table C).countOf p = 0 := by
  unfold countOf ofCapacity
  rw [Array.countP_replicate, hp]
  rfl

theorem capturedCount_ofCapacity (k : Nat) : (ofCapacity k : Table C).capturedCount = 0 :=
  countOf_ofCapacity k (p := ThreadState.isCaptured) rfl

theorem balanced_ofCapacity {k : Nat} (hk : k ≤ Config.capacityLimit) :
    (ofCapacity k : Table C).Balanced 0 .nobody where
  captured_eq := (capturedCount_ofCapacity k).symm
  running_iff tid := by
    rw [state?_ofCapacity]
    split <;> simp
  runner_eq_nobody _ := rfl
  saved tid s hs hne := by
    rw [state?_ofCapacity] at hs
    split at hs
    · exact absurd (Option.some.inj hs).symm hne
    · nomatch hs
  nobody_unknown := by
    rw [state?_ofCapacity, if_neg]
    have : k ≤ 65536 := hk
    change ¬ 4294967295 < k
    omega

end Table

namespace Ledger

variable {C σ : Type}

/-- **What always holds of a ledger between critical sections.** -/
structure Sound (m : Ledger C σ) : Prop where
  balanced : m.table.Balanced m.captured m.runner
  /-- The executor's own thread is inside the program. -/
  executor_inside : m.executor ≠ .nobody → m.table.Inside m.executor
  runnerHint_eq : m.runnerHint = m.runner
  armedHint_eq : m.armedHint = m.armed

theorem sound_fresh {k : Nat} (hk : k ≤ Config.capacityLimit) (s : σ) :
    (fresh k s : Ledger C σ).Sound where
  balanced := Table.balanced_ofCapacity hk
  executor_inside h := absurd rfl h
  runnerHint_eq := rfl
  armedHint_eq := rfl

/-- What is published is true, so a hook passes over the runner, unless a block is armed. -/
theorem Sound.hookCalls_eq_false_iff {m : Ledger C σ} {next : ThreadId} (h : m.Sound) :
    m.hookCalls next = false ↔ next = m.runner ∧ m.armed = false := by
  rw [hookCalls, h.runnerHint_eq, h.armedHint_eq, Bool.or_eq_false_iff, bne_eq_false_iff_eq]

end Ledger

end SoleRunner
