import SoleRunner.Proofs.Debt
import SoleRunner.Proofs.SingleRunner
import SoleRunner.Proofs.Stranded

/-!
# Proofs/Undisturbed — a crew that nobody interferes with

As long as nobody makes requests, no block is armed and nobody is blocked, captured threads have a runner
among them, an executor that owes its uncapture is alone, and whoever waits has a saved context
(`Crew.Undisturbed`).  In such a crew no handler fails, except that the scheduler may choose a thread that
is not idle; there always is an idle one when it is asked (`Table.Balanced.exists_idle`).
-/

namespace SoleRunner

namespace Table

variable {C : Type} {t t' : Table C} {tid u runner : ThreadId} {s : ThreadState} {c : C} {n : Nat}

/-- **`t'` comes from `t` by steps that block nobody**: it has the same slots, and no saved context is
lost. -/
structure Grows (t t' : Table C) : Prop where
  capacity_eq : t'.capacity = t.capacity
  saved : ∀ u, (∃ c, t.saved? u = some c) → ∃ c, t'.saved? u = some c
  blocked : ∀ u, t'.state? u = some .blocked → t.state? u = some .blocked

theorem Grows.refl (t : Table C) : t.Grows t := ⟨rfl, fun _ h => h, fun _ h => h⟩

/-- To save a context loses none and blocks nobody. -/
theorem Grows.save (h : t.Grows t') (tid : ThreadId) (c : C) : t.Grows (t'.save tid c) where
  capacity_eq := capacity_save.trans h.capacity_eq
  saved u hu := by
    obtain ⟨d, hd⟩ := h.saved u hu
    rcases eq_or_ne u tid with rfl | hut
    · obtain ⟨s, hs⟩ := state?_of_saved? hd
      exact ⟨c, saved?_save_self hs⟩
    · exact ⟨d, (saved?_save_of_ne hut).trans hd⟩
  blocked u hu := h.blocked u (state?_save.symm.trans hu)

/-- A mark loses no context, and blocks somebody only if it says so. -/
theorem Grows.mark (h : t.Grows t') (tid : ThreadId) (hs : s ≠ .blocked) : t.Grows (t'.mark tid s) where
  capacity_eq := capacity_mark.trans h.capacity_eq
  saved u hu := by
    rw [saved?_mark]
    exact h.saved u hu
  blocked u hu := by
    rw [state?_mark] at hu
    split at hu
    · obtain ⟨old, -, hnew⟩ := Option.map_eq_some_iff.mp hu
      exact absurd hnew hs
    · exact h.blocked u hu

namespace Balanced

/-- Whoever is captured and does not run is idle. -/
theorem idle_of_captured (h : t.Balanced n runner) (hs : t.state? u = some s) (hc : s.isCaptured)
    (hne : u ≠ runner) : t.state? u = some .idle := by
  cases s with
  | idle => exact hs
  | running => exact absurd (h.runner_eq_of_running hs) hne
  | uncaptured => nomatch hc
  | blocked => nomatch hc

/-- So is whoever is inside, does not run and is not blocked. -/
theorem idle_of_inside (h : t.Balanced n runner) (hu : t.Inside u) (hne : u ≠ runner)
    (hb : t.state? u ≠ some .blocked) : t.state? u = some .idle := by
  obtain ⟨s, hs, hin⟩ := hu
  refine h.idle_of_captured hs ?_ hne
  cases s with
  | blocked => exact absurd hs hb
  | uncaptured => exact absurd rfl hin
  | idle => rfl
  | running => rfl

/-- **Of two captured threads one is idle.** -/
theorem exists_idle (h : t.Balanced n runner) (hn : 2 ≤ n) : ∃ u, t.state? u = some .idle := by
  by_cases hr : runner = .nobody
  · obtain ⟨u, s, hs, hc⟩ := exists_captured h.capacity_le (by have := h.captured_eq; omega)
    exact ⟨u, h.idle_of_captured hs hc (hr ▸ h.ne_nobody hs)⟩
  · have hrun := h.runner_running hr
    have hcount := capturedCount_mark hrun .uncaptured
    have hpos : 0 < (t.mark runner .uncaptured).capturedCount := by
      have := h.captured_eq
      simp only [ThreadState.isCaptured, if_true, Bool.false_eq_true, if_false] at hcount
      omega
    obtain ⟨u, s, hs, hc⟩ := exists_captured (by rw [capacity_mark]; exact h.capacity_le) hpos
    have hne : u ≠ runner := by
      rintro rfl
      rw [state?_mark_self hrun] at hs
      cases hs
      cases hc
    exact ⟨u, h.idle_of_captured ((state?_mark_of_ne hne).symm.trans hs) hc hne⟩

end Balanced

end Table

namespace Ledger

variable {C σ : Type} {m m' : Ledger C σ} {tid next : ThreadId} {c : C} {s : σ} {p : Scheduler C σ}
  {log : Array Log.Entry}

/-- `m'` comes from `m` by steps that block nobody, and arms no block. -/
structure Grows (m m' : Ledger C σ) : Prop where
  table : m.table.Grows m'.table
  armed : m.armed = false → m'.armed = false

theorem Grows.refl (m : Ledger C σ) : m.Grows m := ⟨.refl _, fun h => h⟩

theorem Grows.withSaved (h : m.Grows m') : m.Grows (m'.withSaved tid c) :=
  ⟨h.table.save _ _, h.armed⟩

/-- A thread that enters is running or idle. -/
theorem Grows.entered (h : m.Grows m') : m.Grows (m'.entered p tid c) := by
  refine ⟨(h.table.save _ _).mark _ ?_, h.armed⟩
  split <;> decide

/-- When the runner is replaced, one thread goes out and another one runs. -/
theorem Grows.replaced (h : m.Grows m') : m.Grows (m'.replaced next c s) :=
  ⟨((h.table.save _ _).mark _ (by decide)).mark _ (by decide), h.armed⟩

/-- A runner that is switched from is blocked only by an armed block. -/
theorem Grows.switched (h : m.Grows m') (ha : m.armed = false) :
    m.Grows (m'.switched next c log) := by
  refine ⟨((h.table.save _ _).mark _ ?_).mark _ (by decide), fun _ => rfl⟩
  change (if m'.armed then ThreadState.blocked else .idle) ≠ .blocked
  rw [h.armed ha]
  decide

/-- A thread that exits goes out. -/
theorem Grows.vacated (h : m.Grows m') : m.Grows (m'.vacated tid) :=
  ⟨h.table.mark _ (by decide), h.armed⟩

/-- What is neither in the table nor about armed blocks does not matter. -/
theorem Grows.ledBy (h : m.Grows m') : m.Grows (m'.ledBy tid log) := ⟨h.table, h.armed⟩

theorem Grows.debtPaid (h : m.Grows m') : m.Grows (m'.debtPaid log) := ⟨h.table, h.armed⟩

theorem Grows.cleared (h : m.Grows m') : m.Grows (m'.cleared log) := ⟨h.table, h.armed⟩

theorem Grows.shipped (h : m.Grows m') : m.Grows (m'.shipped tid log) := ⟨h.table, h.armed⟩

theorem Grows.handedOver (h : m.Grows m') : m.Grows (m'.handedOver log) := ⟨h.table, h.armed⟩

theorem Grows.owing (h : m.Grows m') : m.Grows (m'.owing log) := ⟨h.table, h.armed⟩

theorem Grows.logged (h : m.Grows m') : m.Grows (m'.logged log) := ⟨h.table, h.armed⟩

theorem Grows.ended (h : m.Grows m') : m.Grows (m'.ended p tid log) := ⟨h.table, h.armed⟩

/-- Whoever is alone in a system call is somebody. -/
theorem Alone.executor_ne_nobody (h : m.Alone) (hs : m.Sound) : m.executor ≠ .nobody :=
  h.executor_eq ▸ hs.balanced.runner_ne_nobody_of_running h.running

/-- Whatever context it is shown, the scheduler puts an idle thread in place of the runner. -/
def Chooses (m : Ledger C σ) (p : Scheduler C σ) : Prop :=
  ∀ c, m.table.state? (p.choose m.runner c m.schedulerState).1 = some .idle

/-- Any answer of such a scheduler is an idle thread. -/
theorem Chooses.idle (h : m.Chooses p) {d : C}
    (ha : p.choose m.runner c m.schedulerState = (next, d, s)) : m.table.state? next = some .idle := by
  have hidle := h c
  rwa [ha] at hidle

end Ledger

/-- What threads do themselves, rather than what is asked from outside. -/
def Move.isOwn {C σ : Type} : Move C σ → Bool
  | start .. | arrive .. | depart .. | switch .. | finish .. | compute .. | wake .. | look .. => true
  | plan .. | request .. | edit .. | think .. => false

namespace Crew

open Critical Arbiter

variable {C σ : Type} [Context C] {arb : Arbiter C σ} {w w' : Crew C σ} {m : Ledger C σ}
  {tid : ThreadId} {c : C} {last : Option (Resume C)} {mv : Move C σ}

/-- **Nobody has interfered with the crew.** -/
structure Undisturbed (w : Crew C σ) : Prop where
  unarmed : w.ledger.armed = false
  unblocked : ∀ u, w.ledger.table.state? u ≠ some .blocked
  led : ¬ w.ledger.Stranded
  settled : w.ledger.SettledAlone
  saved : ∀ u b, w.place u = .inside b → ∃ c, w.ledger.table.saved? u = some c

omit [Context C] in
/-- A new crew is undisturbed. -/
theorem undisturbed_new {capacity : Nat} (m : Ledger C σ) (ht : m.table = .ofCapacity capacity)
    (ha : m.armed = false) (hn : m.captured = 0) (ho : m.owesUncapture = false) :
    (new m).Undisturbed where
  unarmed := ha
  unblocked u := by
    change m.table.state? u ≠ _
    rw [ht, Table.state?_ofCapacity]
    split <;> exact nofun
  led h := h.1 hn
  settled h := nomatch ho.symm.trans h
  saved _ _ h := nomatch h

/-! ## What threads do by themselves -/

/-- A move of a thread blocks nobody while no block is armed. -/
theorem Moves.grows (hw : w.Stationed) (ha : w.ledger.armed = false) (hown : mv.isOwn)
    (hm : Moves arb w mv w') : w.ledger.Grows w'.ledger := by
  have hkept := Ledger.Grows.refl w.ledger
  cases hm with
  | start hp ho =>
    have ho := ho ▸ arb.startThread_outcome _ _ w.ledger
    cases ho
    exact ⟨.refl _, fun h => h⟩
  | arrive hp hg ho =>
    have ho : Arrives arb _ _ w.ledger _ := ho ▸ arrive_outcome hw.sound.balanced
    cases ho with
    | returned => exact hkept.cleared.withSaved
    | joined hu hset =>
      cases hset with
      | paid => exact hkept.entered.replaced.debtPaid.ledBy.withSaved
      | took => exact hkept.entered.ledBy.withSaved
      | waits => exact hkept.entered
  | depart hp hg ho =>
    have ho : Departs arb _ _ w.ledger _ := ho ▸ depart_outcome hw.sound.balanced
    cases ho with
    | shipped => exact hkept.replaced.shipped.withSaved
    | handedOver => exact hkept.replaced.handedOver.withSaved
    | owed => exact hkept.owing.withSaved
  | switch hp hg ho =>
    have ho : Switches arb _ _ w.ledger _ := ho ▸ switch_outcome hw.sound.balanced
    cases ho with
    | switched => exact (hkept.switched ha).withSaved
  | finish hp hg ho =>
    have ho := ho ▸ arb.endThread_outcome _ w.ledger
    cases ho with
    | outside => exact hkept.ended
    | last => exact hkept.vacated.ended
  | compute => exact hkept
  | wake => exact ⟨.refl _, fun h => h⟩
  | look hp ho =>
    have ho : Looks arb _ w.ledger _ := ho ▸ lookAgain_outcome hw.sound.balanced
    cases ho with
    | released => exact hkept.logged.withSaved
    | took => exact hkept.ledBy.withSaved
    | waits => exact ⟨.refl _, fun h => h⟩
  | plan => nomatch hown
  | request => nomatch hown
  | edit => nomatch hown
  | think => nomatch hown

/-- Whoever comes to wait has its context saved. -/
theorem Moves.saved (hw : w.Stationed) (hsaved : ∀ u b, w.place u = .inside b →
      ∃ c, w.ledger.table.saved? u = some c) (ha : w.ledger.armed = false) (hown : mv.isOwn)
    (hm : Moves arb w mv w') (u : ThreadId) (b : Bool) (hp : w'.place u = .inside b) :
    ∃ c, w'.ledger.table.saved? u = some c := by
  have hgrows := (hm.grows hw ha hown).table
  by_cases hold : ∃ b, w.place u = .inside b
  · obtain ⟨b', hb'⟩ := hold
    exact hgrows.saved u (hsaved u b' hb')
  have hput {tid : ThreadId} {n : Ledger C σ} {p : Place C} (hout : ∀ b, p ≠ .inside b) :
      (w.put n tid p).place u ≠ .inside b := by
    rcases eq_or_ne u tid with rfl | hut
    · rw [place_put_self]
      exact hout b
    · rw [place_put_of_ne hut]
      exact fun hin => hold ⟨b, hin⟩
  cases hm with
  | start => exact absurd hp (hput fun _ => nofun)
  | @arrive tid c last a m hplace hg ho =>
    rcases eq_or_ne u tid with rfl | hut
    · have ho : Arrives arb _ _ w.ledger _ := ho ▸ arrive_outcome hw.sound.balanced
      rw [place_put_self] at hp
      cases ho with
      | returned => nomatch hp
      | joined hu hset =>
        cases hset with
        | paid => nomatch hp
        | took => nomatch hp
        | waits => exact ⟨c, Table.saved?_mark.trans (Table.saved?_save_self hu)⟩
    · rw [place_put_of_ne hut] at hp
      exact absurd ⟨b, hp⟩ hold
  | depart => exact absurd hp (hput fun _ => nofun)
  | switch => exact absurd hp (hput fun _ => nofun)
  | finish => exact absurd hp (hput fun _ => nofun)
  | compute => exact absurd hp (hput fun _ => nofun)
  | @wake tid hplace =>
    rcases eq_or_ne u tid with rfl | hut
    · exact absurd ⟨false, hplace⟩ hold
    · rw [place_put_of_ne hut] at hp
      exact absurd ⟨b, hp⟩ hold
  | @look tid a m hplace ho =>
    rcases eq_or_ne u tid with rfl | hut
    · exact absurd ⟨true, hplace⟩ hold
    · rw [place_put_of_ne hut] at hp
      exact absurd ⟨b, hp⟩ hold
  | plan => nomatch hown
  | request => nomatch hown
  | edit => nomatch hown
  | think => nomatch hown

/-- **What threads do themselves leaves a crew undisturbed.** -/
theorem Moves.undisturbed (hw : w.Stationed) (h : w.Undisturbed) (hown : mv.isOwn)
    (hm : Moves arb w mv w') : w'.Undisturbed where
  unarmed := (hm.grows hw h.unarmed hown).armed h.unarmed
  unblocked u hu := h.unblocked u ((hm.grows hw h.unarmed hown).table.blocked u hu)
  led hs := by
    obtain hs | ⟨tid, rfl, -⟩ := (hm.stranded_iff hw).mp hs
    · exact h.led hs
    · nomatch hown
  settled := by
    refine hm.settledAlone hw h.settled ?_
    rintro ⟨tid, rfl, -⟩
    nomatch hown
  saved := hm.saved hw h.saved h.unarmed hown

/-! ## No handler fails -/

omit [Context C] in
/-- A thread of the table that neither waits nor is the executor is outside the program. -/
theorem Stationed.outside_of (hw : w.Stationed) (hlt : tid.index < w.ledger.table.capacity)
    (hp : ∀ b, w.place tid ≠ .inside b) (hne : tid ≠ w.ledger.executor) : w.ledger.table.Outside tid := by
  obtain ⟨s, hs⟩ := Table.exists_state?_of_lt hlt
  rcases eq_or_ne s .uncaptured with rfl | hin
  · exact hs
  · obtain ⟨b, hb⟩ := hw.waits tid ⟨s, hs, hin⟩ hne
    exact absurd hb (hp b)

/-- **A thread that has not started can start.** -/
theorem start_ok (hw : w.Stationed) (hlt : tid.index < w.ledger.table.capacity)
    (hp : w.place tid = .absent) (c : C) : ∃ c' m, arb.startThread tid c w.ledger = .ok c' m := by
  have hne : tid ≠ w.ledger.executor := by
    rintro rfl
    obtain ⟨s, hs⟩ := Table.exists_state?_of_lt hlt
    obtain ⟨d, l, hd⟩ := hw.executor_outside (hw.sound.balanced.ne_nobody hs)
    rw [hp] at hd
    nomatch hd
  have hu : w.ledger.table.Outside tid := hw.outside_of hlt (fun b => by rw [hp]; exact nofun) hne
  have ho := arb.startThread_outcome tid c w.ledger
  generalize arb.startThread tid c w.ledger = r at ho
  cases ho with
  | unknown hs => exact absurd (hs.symm.trans hu) nofun
  | astray hs hin => exact absurd (Option.some.inj (hs.symm.trans hu)) hin
  | started => exact ⟨_, _, rfl⟩

/-- Where the mark is missing, the executor is alone in a system call. -/
theorem Undisturbed.alone_of_plain (h : w.Undisturbed) (hm : Marked arb w)
    (hw : w.Stationed) (hp : w.place tid = .outside c last) (hc : Context.reg c arb.roleReg = 0)
    (he : tid = w.ledger.executor) : w.ledger.Alone := by
  subst he
  obtain ⟨hone, -⟩ | ⟨-, howes, -⟩ := hm.leads (hw.ne_nobody_of_outside hp) c last hp
  · rw [hc] at hone
    exact absurd hone (by decide)
  · exact h.settled howes

/-- The thread that carries the mark is the executor, and runs somebody's code. -/
theorem Marked.executor_of_mark (hm : Marked arb w) (hw : w.Stationed)
    (hp : w.place tid = .outside c last) (hc : Context.reg c arb.roleReg ≠ 0) :
    w.ledger.executor = tid ∧ w.ledger.runner ≠ .nobody ∧ w.ledger.owesUncapture = false ∧
      Context.reg c arb.roleReg = 1 := by
  have he : w.ledger.executor = tid :=
    Classical.byContradiction fun hne => hc (hm.plain tid (Ne.symm hne) c last hp)
  subst he
  have hn := hw.ne_nobody_of_outside hp
  obtain ⟨hone, howes, -⟩ | ⟨hzero, -⟩ := hm.leads hn c last hp
  · exact ⟨rfl, hw.executor_runs hn, howes, hone⟩
  · exact absurd hzero hc

/-- **An arrival does not fail**, if the scheduler chooses an idle thread where it is asked to pay an
uncapture that is owed. -/
theorem arrive_ok (hw : w.Stationed) (hm : Marked arb w) (h : w.Undisturbed)
    (hlt : tid.index < w.ledger.table.capacity) (hp : w.place tid = .outside c last)
    (hc : Context.reg c arb.roleReg = 0)
    (hchoice : w.ledger.table.Outside tid → w.ledger.owesUncapture = true →
      (w.ledger.entered arb.scheduler tid c).Chooses arb.scheduler) :
    ∃ a m, arb.arrive tid c w.ledger = .ok a m := by
  have ho : Arrives arb tid c w.ledger (arb.arrive tid c w.ledger) := arrive_outcome hw.sound.balanced
  generalize arb.arrive tid c w.ledger = r at ho
  by_cases he : tid = w.ledger.executor
  · have ha := h.alone_of_plain hm hw hp hc he
    have hrun : w.ledger.table.state? tid = some .running := he ▸ ha.executor_running
    cases ho with
    | unknown hs => exact absurd (hs.symm.trans hrun) nofun
    | inside hs hin =>
      cases hs.symm.trans hrun
      exact absurd hin (by decide)
    | astray hs hbad => exact hbad.elim (absurd he.symm) (absurd ha.captured_eq)
    | returned => exact ⟨_, _, rfl⟩
    | joined hs => exact absurd (hs.symm.trans hrun) nofun
  · have hu := hw.outside_of hlt (fun b => by rw [hp]; exact nofun) he
    have hset := ho.of_outside hu
    have halone (howes : w.ledger.owesUncapture = true) :
        (w.ledger.entered arb.scheduler tid c).runner = (w.ledger.entered arb.scheduler tid c).executor ∧
          (w.ledger.entered arb.scheduler tid c).captured = 2 := by
      have ha := h.settled howes
      exact (alone_iff_of_entered hw.sound (ha.executor_ne_nobody hw.sound) arb.scheduler tid c).mp ha
    cases hset with
    | astray howes hbad => exact hbad.elim (absurd (halone howes).1) (absurd (halone howes).2)
    | unowned howes he' _ hr =>
      exact absurd (he'.symm.trans hr) ((h.settled howes).executor_ne_nobody hw.sound)
    | refused howes _ _ _ _ hask hnext => exact absurd ((hchoice hu howes).idle hask) hnext
    | paid => exact ⟨_, _, rfl⟩
    | leaderless _ _ hr =>
      by_cases h0 : w.ledger.captured = 0
      · have hfirst : (w.ledger.entered arb.scheduler tid c).runner = tid := if_pos h0
        exact absurd (hfirst.symm.trans hr) (hw.ne_nobody_of_outside hp)
      · rw [Ledger.entered_runner_of_later h0] at hr
        exact absurd ⟨h0, hr⟩ h.led
    | took => exact ⟨_, _, rfl⟩
    | waits => exact ⟨_, _, rfl⟩

/-- **A departure does not fail**, if the scheduler chooses an idle thread whenever others are captured.
-/
theorem depart_ok (hw : w.Stationed) (hm : Marked arb w) (h : w.Undisturbed)
    (hp : w.place tid = .outside c last) (hc : Context.reg c arb.roleReg ≠ 0)
    (hchoice : 2 ≤ w.ledger.captured → w.ledger.Chooses arb.scheduler) :
    ∃ r m, arb.depart tid c w.ledger = .ok r m := by
  obtain ⟨he, hr, howes, -⟩ := hm.executor_of_mark hw hp hc
  have hb := hw.sound.balanced
  refine (depart_ok_iff hb).mpr ⟨he, hr, ?_⟩
  by_cases hn : 2 ≤ w.ledger.captured
  · exact .inl ⟨hn, (hchoice hn).idle rfl⟩
  · refine .inr ⟨Nat.not_le.mp hn, Classical.byContradiction fun hne => hn ?_, howes⟩
    have hin := hw.sound.executor_inside (he ▸ hw.ne_nobody_of_outside hp)
    rw [he] at hin
    exact hb.one_lt_captured (hb.idle_of_inside hin (Ne.symm hne) (h.unblocked tid)) hr

/-- **A switch to an idle thread does not fail.** -/
theorem switch_ok (hw : w.Stationed) (hm : Marked arb w)
    (hp : w.place tid = .outside c last) (hc : Context.reg c arb.roleReg ≠ 0)
    (hne : arb.decision c ≠ w.ledger.runner)
    (hidle : w.ledger.table.state? (arb.decision c) = some .idle) :
    ∃ r m, arb.switch tid c w.ledger = .ok r m := by
  obtain ⟨he, hr, -, hone⟩ := hm.executor_of_mark hw hp hc
  exact (switch_ok_iff hw.sound.balanced).mpr ⟨hone, he, hr, hne, hidle⟩

/-- **An exit does not fail**: whoever is in its own code is outside, or alone in a system call. -/
theorem finish_ok (hw : w.Stationed) (hm : Marked arb w) (h : w.Undisturbed)
    (hlt : tid.index < w.ledger.table.capacity) (hp : w.place tid = .outside c last)
    (hc : Context.reg c arb.roleReg = 0) : ∃ m, arb.endThread tid w.ledger = .ok () m := by
  have ho := arb.endThread_outcome tid w.ledger
  generalize arb.endThread tid w.ledger = r at ho
  by_cases he : tid = w.ledger.executor
  · have ha := h.alone_of_plain hm hw hp hc he
    have hrun : w.ledger.table.state? tid = some .running := he ▸ ha.executor_running
    cases ho with
    | unknown hs => exact absurd (hs.symm.trans hrun) nofun
    | refused hs _ hbad =>
      have hbad := hbad (Option.some.inj (hs.symm.trans hrun))
      exact hbad.elim (absurd ha.captured_eq) (absurd he.symm)
    | outside hs => exact absurd (hs.symm.trans hrun) nofun
    | last => exact ⟨_, rfl⟩
  · have hu := hw.outside_of hlt (fun b => by rw [hp]; exact nofun) he
    cases ho with
    | unknown hs => exact absurd (hs.symm.trans hu) nofun
    | refused hs hin => exact absurd (Option.some.inj (hs.symm.trans hu)) hin
    | outside => exact ⟨_, rfl⟩
    | last => exact ⟨_, rfl⟩

/-- **A look does not fail**: whoever waits has a saved context, and the captured threads have a runner.
-/
theorem look_ok (hw : w.Stationed) (h : w.Undisturbed) (hlt : tid.index < w.ledger.table.capacity)
    (hp : w.place tid = .inside true) : ∃ a m, arb.lookAgain tid w.ledger = .ok a m := by
  obtain ⟨s, hs⟩ := Table.exists_state?_of_lt hlt
  have ho : Looks arb tid w.ledger (arb.lookAgain tid w.ledger) := lookAgain_outcome hw.sound.balanced
  generalize arb.lookAgain tid w.ledger = r at ho
  cases ho with
  | unknown hs' => exact absurd (hs'.symm.trans hs) nofun
  | unsaved _ hc =>
    obtain ⟨c, hc'⟩ := h.saved tid true hp
    exact absurd (hc.symm.trans hc') nofun
  | released => exact ⟨_, _, rfl⟩
  | leaderless hs' hin _ hr =>
    have hn := hr ▸ hw.ne_nobody_of_inside hp
    have hidle := hw.sound.balanced.idle_of_inside ⟨_, hs', hin⟩ hn (h.unblocked tid)
    exact absurd ⟨Nat.ne_of_gt (hw.sound.balanced.captured_pos hidle rfl), hr⟩ h.led
  | took => exact ⟨_, _, rfl⟩
  | waits => exact ⟨_, _, rfl⟩

end Crew

end SoleRunner
