import SoleRunner.Proofs.Undisturbed

/-!
# Proofs/Away — whose code runs on its own OS thread

A thread is *away* if its code runs uninstrumented: it is outside the program, or it is the runner and
its uncapture is still owed (`Ledger.Away`).  An arrival brings its thread back (`Arrives.away_iff`), a
departure sends the runner away (`Departs.away_iff`), an exit leaves its thread away, and nothing else
that a thread does changes who is away.  In a crew that nobody interferes with, whoever lacks the
executor's mark is away, and the runner of an executor that has it is not.
-/

namespace SoleRunner

namespace Ledger

variable {C σ : Type} {m m' : Ledger C σ} {u : ThreadId}

/-- **`u` is away**: outside the program, or in a system call for which its uncapture is still owed. -/
def Away (m : Ledger C σ) (u : ThreadId) : Prop :=
  m.table.Outside u ∨ m.owesUncapture = true ∧ u = m.runner

instance : Decidable (m.Away u) :=
  inferInstanceAs (Decidable (m.table.state? u = some .uncaptured ∨ _))

theorem away_iff_of_free (ho : m.owesUncapture = false) : m.Away u ↔ m.table.Outside u := by
  simp [Away, ho]

theorem away_congr (hs : m'.table.state? u = m.table.state? u)
    (ho : m'.owesUncapture = m.owesUncapture) (hr : m'.runner = m.runner) : m'.Away u ↔ m.Away u := by
  rw [Away, Away, Table.outside_congr hs, ho, hr]

/-- `u` is away, as a truth value. -/
def isAway (m : Ledger C σ) (u : ThreadId) : Bool := decide (m.Away u)

theorem isAway_congr (h : m'.Away u ↔ m.Away u) : m'.isAway u = m.isAway u := decide_eq_decide.mpr h

theorem isAway_of (h : m.Away u) : m.isAway u = true := decide_eq_true h

theorem isAway_of_not (h : ¬ m.Away u) : m.isAway u = false := decide_eq_false h

end Ledger

namespace Arbiter

open Ledger

variable {C σ : Type} {arb : Arbiter C σ} {m m' : Ledger C σ} {tid u : ThreadId} {c : C}

/-! ## What each handler does -/

theorem Starts.away_iff [Context C] {c' : C} (ho : Starts arb tid c m (.ok c' m')) :
    m'.Away u ↔ m.Away u := by
  cases ho with
  | started => exact Iff.rfl

/-- How an arrival goes on changes nothing about who is away, but that an uncapture may be made. -/
theorem Settles.away_iff [Context C] {a : Arrival C} (hb : m.table.Balanced m.captured m.runner)
    (ho : Settles arb tid m (.ok a m')) : m'.Away u ↔ m.Away u := by
  cases ho with
  | paid howes he hn hr hd ha hnext hx =>
    refine (away_iff_of_free rfl).trans ?_
    rw [outside_withSaved, ledBy_table, debtPaid_table, outside_replaced hb hr hnext, Away, howes,
      and_iff_right rfl]
  | took howes he hr hx => exact away_congr Table.state?_save rfl rfl
  | waits => exact Iff.rfl

/-- **An arrival brings its thread back.** -/
theorem Arrives.away_iff [Context C] {a : Arrival C} (hb : m.table.Balanced m.captured m.runner)
    (hset : m.SettledAlone) (ho : Arrives arb tid c m (.ok a m')) :
    m'.Away u ↔ m.Away u ∧ u ≠ tid := by
  cases ho with
  | returned hrun he hn =>
    have hr := hb.runner_eq_of_running hrun
    refine (away_iff_of_free rfl).trans ?_
    rw [outside_withSaved, cleared_table, Away, ← hr]
    constructor
    · intro hout
      refine ⟨.inl hout, ?_⟩
      rintro rfl
      exact Table.not_outside_of_state hrun (by decide) hout
    · rintro ⟨hout | ⟨-, hu⟩, hne⟩
      · exact hout
      · exact absurd hu hne
  | joined hs hsettle =>
    have hb' := entered_balanced hb arb.scheduler c hs
    have howes : (m.entered arb.scheduler tid c).owesUncapture = m.owesUncapture := rfl
    rw [hsettle.away_iff hb', Away, Away, outside_entered hs, howes]
    by_cases ho : m.owesUncapture = true
    · have halone := hset ho
      have hlater : m.captured ≠ 0 := by rw [halone.captured_eq]; decide
      have hne : m.runner ≠ tid := by
        rintro rfl
        exact Table.not_outside_of_state halone.running (by decide) hs
      rw [entered_runner_of_later hlater, or_and_right]
      refine or_congr Iff.rfl ⟨fun h => ⟨h, ?_⟩, And.left⟩
      exact fun hu => hne (h.2.symm.trans hu)
    · simp only [ho, Bool.false_eq_true, false_and, or_false]

/-- **A departure sends the runner away**, at once or as soon as its uncapture is made. -/
theorem Departs.away_iff [Context C] {r : Resume C} (hb : m.table.Balanced m.captured m.runner)
    (hset : m.SettledAlone) (ho : Departs arb tid c m (.ok r m')) :
    m'.Away u ↔ m.Away u ∨ u = m.runner := by
  have hfree (hn : 2 ≤ m.captured) : m.owesUncapture = false :=
    Bool.eq_false_iff.mpr fun howes => absurd (hset howes).captured_eq (by omega)
  cases ho with
  | shipped he hr hne hn ha hnext hx =>
    have ho := hfree hn
    rw [away_iff_of_free ho]
    refine (away_iff_of_free (by exact ho)).trans ?_
    rw [outside_withSaved, shipped_table, outside_replaced hb hr hnext]
  | handedOver he hr htid hn ha hnext =>
    have ho := hfree hn
    rw [away_iff_of_free ho]
    refine (away_iff_of_free (by exact ho)).trans ?_
    rw [outside_withSaved, handedOver_table, outside_replaced hb (hr ▸ htid) hnext]
  | owed he hr htid hn ho =>
    rw [away_iff_of_free ho, Away, outside_withSaved]
    exact or_congr Iff.rfl (and_iff_right rfl)

theorem Switches.away_iff [Context C] {r : Resume C} (hs : m.Sound) (hset : m.SettledAlone)
    (ho : Switches arb tid c m (.ok r m')) : m'.Away u ↔ m.Away u := by
  cases ho with
  | switched hcheck hr hx =>
    obtain ⟨-, -, -, hidle⟩ := of_checkSwitch hcheck
    have ho : m.owesUncapture = false :=
      Bool.eq_false_iff.mpr fun howes => (hset howes).not_idle hs hidle
    rw [away_iff_of_free ho]
    refine (away_iff_of_free (by exact ho)).trans ?_
    rw [outside_withSaved, outside_switched hs.balanced hr hidle]

theorem Looks.away_iff [Context C] {a : Arrival C} (ho : Looks arb tid m (.ok a m')) :
    m'.Away u ↔ m.Away u := by
  cases ho with
  | released => exact away_congr Table.state?_save rfl rfl
  | took => exact away_congr Table.state?_save rfl rfl
  | waits => exact Iff.rfl

/-- An exit leaves its thread away. -/
theorem Finishes.away_iff (hb : m.table.Balanced m.captured m.runner)
    (ho : Finishes arb tid m (.ok () m')) : m'.Away u ↔ m.Away u ∨ u = tid := by
  cases ho with
  | outside hs =>
    have haway : u = tid → m.Away u := by
      rintro rfl
      exact .inl hs
    exact (or_iff_left_of_imp haway).symm
  | last hrun hn he =>
    have hr := hb.runner_eq_of_running hrun
    refine (away_iff_of_free rfl).trans ?_
    rcases eq_or_ne u tid with rfl | hu
    · exact iff_of_true (Table.state?_mark_self hrun) (.inr rfl)
    · rw [Away, ← hr, or_iff_left hu, or_iff_left fun h => hu h.2]
      exact Table.outside_congr (Table.state?_mark_of_ne hu)

end Arbiter

namespace Crew

open Arbiter Ledger

variable {C σ : Type} [Context C] {arb : Arbiter C σ} {w : Crew C σ} {tid : ThreadId} {c : C}
  {last : Option (Resume C)}

/-! ## The mark tells who is away -/

/-- Whoever is in some code without the executor's mark is away. -/
theorem Marked.away_of_plain (hm : Marked arb w) (hw : w.Stationed)
    (hlt : tid.index < w.ledger.table.capacity) (hp : w.place tid = .outside c last)
    (hc : Context.reg c arb.roleReg = 0) : w.ledger.Away tid := by
  by_cases he : tid = w.ledger.executor
  · subst he
    obtain ⟨hone, -⟩ | ⟨-, howes, hr⟩ := hm.leads (hw.ne_nobody_of_outside hp) c last hp
    · rw [hc] at hone
      exact absurd hone (by decide)
    · exact .inr ⟨howes, hr.symm⟩
  · exact .inl (hw.outside_of hlt (fun b => by rw [hp]; exact nofun) he)

/-- The runner of an executor that carries the mark is not away. -/
theorem Marked.not_away_of_mark (hm : Marked arb w) (hw : w.Stationed)
    (hp : w.place tid = .outside c last) (hc : Context.reg c arb.roleReg ≠ 0) :
    ¬ w.ledger.Away w.ledger.runner := by
  obtain ⟨-, hr, ho, -⟩ := hm.executor_of_mark hw hp hc
  rw [away_iff_of_free ho]
  exact Table.not_outside_of_state (hw.sound.balanced.runner_running hr) (by decide)

end Crew

end SoleRunner
