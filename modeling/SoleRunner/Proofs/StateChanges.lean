import SoleRunner.Proofs.AnyRun

/-!
# Proofs/StateChanges — how a thread changes its state, and whose section it takes

Sections write states with and without looking at the state that was there, so that it is not the writing
that keeps a blocked thread from running, say.  But on a ledger that can be reached every section, whether
it succeeds or fails, makes at each thread one of eight changes at most (`ThreadState.Becomes`), and it
changes the states only of the threads that it is about (`Event.Concerns`).  Where a section writes one
state twice, only the outcome is seen: a newcomer that is alone, or is chosen at once, joins as running.
-/

namespace SoleRunner

/-- **The changes of state** that a thread can make in one critical section. -/
inductive ThreadState.Becomes : ThreadState → ThreadState → Prop
  | joins : Becomes .uncaptured .idle
  /-- It joins as the first one, or is chosen at once. -/
  | joinsRunning : Becomes .uncaptured .running
  | isChosen : Becomes .idle .running
  | isLeft : Becomes .running .idle
  | goesOut : Becomes .running .uncaptured
  | isLeftBlocked : Becomes .running .blocked
  | isBlocked : Becomes .idle .blocked
  | isUnblocked : Becomes .blocked .idle

namespace Ledger

variable {C σ : Type} {m m' : Ledger C σ} {P : ThreadId → Prop} {tid next : ThreadId} {c : C} {s : σ}
  {p : Scheduler C σ} {log : Array Log.Entry} {old new : ThreadState}

/-- **Each thread has kept its state**, or is one of `P` and has made a change that it can make. -/
def Shifts (P : ThreadId → Prop) (m m' : Ledger C σ) : Prop :=
  ∀ u, m'.table.state? u = m.table.state? u ∨
    P u ∧ ∃ s s', m.table.state? u = some s ∧ m'.table.state? u = some s' ∧ s.Becomes s'

theorem shifts_of_eq (h : ∀ u, m'.table.state? u = m.table.state? u) : m.Shifts P m' :=
  fun u => .inl (h u)

theorem shifts_withSaved (m : Ledger C σ) (tid : ThreadId) (c : C) : m.Shifts P (m.withSaved tid c) :=
  shifts_of_eq fun _ => Table.state?_save

/-- What comes after the change does not matter if it changes no state. -/
theorem Shifts.of_eq {n : Ledger C σ} (h : m.Shifts P n)
    (he : ∀ u, m'.table.state? u = n.table.state? u) : m.Shifts P m' := fun u => by
  rw [he u]
  exact h u

/-- A thread does not come into a state that it cannot make a change to. -/
theorem Shifts.ne_of (h : m.Shifts P m') {u : ThreadId} (hs : m.table.state? u = some old)
    (hne : old ≠ new) (hno : ¬ old.Becomes new) : m'.table.state? u ≠ some new := by
  intro hs'
  obtain heq | ⟨-, s, s', hold, hnew, hbecomes⟩ := h u
  · exact hne (Option.some.inj (hs.symm.trans (heq.symm.trans hs')))
  · cases hs.symm.trans hold
    cases hs'.symm.trans hnew
    exact hno hbecomes

theorem Shifts.withSaved (h : m.Shifts P m') (tid : ThreadId) (c : C) :
    m.Shifts P (m'.withSaved tid c) := h.of_eq fun _ => Table.state?_save

/-- No slot comes or goes. -/
theorem Shifts.capacity_eq (h : m.Shifts P m') (hm : m.table.capacity ≤ ThreadId.nobody.index)
    (hm' : m'.table.capacity ≤ ThreadId.nobody.index) : m'.table.capacity = m.table.capacity := by
  have hnone (u : ThreadId) : m'.table.state? u = none ↔ m.table.state? u = none := by
    obtain heq | ⟨-, s, s', hs, hs', -⟩ := h u
    · rw [heq]
    · exact iff_of_false (fun e => nomatch hs'.symm.trans e) fun e => nomatch hs.symm.trans e
  have hle (i : Nat) (hi : i < ThreadId.nobody.index) :
      m'.table.capacity ≤ i ↔ m.table.capacity ≤ i := by
    rw [← ThreadId.index_ofIndex hi, ← Table.state?_eq_none_iff, ← Table.state?_eq_none_iff, hnone]
  have hm := hle m.table.capacity
  have hm' := hle m'.table.capacity
  omega

/-- One thread changes its state. -/
theorem shifts_mark (htid : P tid) (hs : m.table.state? tid = some old) (hb : old.Becomes new)
    (h : ∀ u, m'.table.state? u = (m.table.mark tid new).state? u) : m.Shifts P m' := by
  intro u
  rw [h u]
  rcases eq_or_ne u tid with rfl | hu
  · exact .inr ⟨htid, old, new, hs, Table.state?_mark_self hs, hb⟩
  · exact .inl (Table.state?_mark_of_ne hu)

/-- A newcomer joins. -/
theorem shifts_entered (htid : P tid) (hs : m.table.Outside tid) :
    m.Shifts P (m.entered p tid c) := by
  have hbecomes : ThreadState.Becomes .uncaptured (if m.captured = 0 then .running else .idle) := by
    split
    · exact .joinsRunning
    · exact .joins
  refine shifts_mark htid hs hbecomes fun u => ?_
  change ((m.table.save tid c).mark tid _).state? u = _
  rw [Table.state?_mark, Table.state?_mark, Table.state?_save]
  rfl

/-- The runner goes out, and the scheduler's choice runs. -/
theorem shifts_replaced (hb : m.table.Balanced m.captured m.runner) (hr : m.runner ≠ .nobody)
    (hn : m.table.state? next = some .idle) (c : C) (s : σ) :
    m.Shifts (fun u => u = m.runner ∨ u = next) (m.replaced next c s) := by
  have hne := hb.ne_runner_of_idle hn
  intro u
  rcases eq_or_ne u next with rfl | hu
  · exact .inr ⟨.inr rfl, _, _, hn, state?_replaced_next hne hn, .isChosen⟩
  rcases eq_or_ne u m.runner with rfl | hur
  · have hrun := hb.runner_running hr
    exact .inr ⟨.inl rfl, _, _, hrun, state?_replaced_runner hne hrun, .goesOut⟩
  · exact .inl (state?_replaced_of_ne hu hur)

/-- The runner is left for the thread of a decision. -/
theorem shifts_switched (hb : m.table.Balanced m.captured m.runner) (hr : m.runner ≠ .nobody)
    (hn : m.table.state? next = some .idle) (c : C) (log : Array Log.Entry) :
    m.Shifts (fun u => u = m.runner ∨ u = next) (m.switched next c log) := by
  have hne := hb.ne_runner_of_idle hn
  intro u
  rcases eq_or_ne u next with rfl | hu
  · exact .inr ⟨.inr rfl, _, _, hn, state?_switched_next hne hn, .isChosen⟩
  rcases eq_or_ne u m.runner with rfl | hur
  · have hrun := hb.runner_running hr
    refine .inr ⟨.inl rfl, _, _, hrun, state?_switched_runner hne hrun, ?_⟩
    split
    · exact .isLeftBlocked
    · exact .isLeft
  · exact .inl (state?_switched_of_ne hu hur)

/-- A newcomer has settled an uncapture that was owed: it is idle, or runs if it was chosen. -/
theorem shifts_settled (hs : m.table.Outside tid) (h0 : m.captured ≠ 0)
    (hb : m.table.Balanced m.captured m.runner) (hr : m.runner ≠ .nobody)
    (hn : (m.entered p tid c).table.state? next = some .idle) (d : C) (s : σ) :
    m.Shifts (fun u => u = tid ∨ u = m.runner ∨ u = next) ((m.entered p tid c).replaced next d s) := by
  have hb' := entered_balanced hb p c hs
  have hrunner : (m.entered p tid c).runner = m.runner := entered_runner_of_later h0
  have hshifts := shifts_replaced hb' (hrunner ▸ hr) hn d s
  rw [hrunner] at hshifts
  intro u
  rcases eq_or_ne u tid with rfl | hu
  · have hidle := state?_entered_of_later (p := p) (c := c) h0 hs
    refine .inr ⟨.inl rfl, .uncaptured, ?_⟩
    rcases eq_or_ne u next with rfl | hun
    · exact ⟨.running, hs, state?_replaced_next (hb'.ne_runner_of_idle hn) hn, .joinsRunning⟩
    · have hkept := state?_replaced_of_ne (c := d) (s := s) hun (hb'.ne_runner_of_idle hidle)
      exact ⟨.idle, hs, hkept.trans hidle, .joins⟩
  · rw [← state?_entered_of_ne (m := m) (p := p) (c := c) hu]
    exact (hshifts u).imp_right fun ⟨hP, hbecomes⟩ => ⟨.inr hP, hbecomes⟩

end Ledger

/-- **The threads whose states an event can change**, on a ledger `m` that becomes `m'`: who arrives or
exits, the runner before and after, and whom a request blocks or unblocks. -/
def Event.Concerns {C σ : Type} (m m' : Ledger C σ) : Event C σ → ThreadId → Prop
  | .call (.arrive tid _), u => u = tid ∨ u = m.runner ∨ u = m'.runner
  | .call (.depart ..), u | .call (.switch ..), u => u = m.runner ∨ u = m'.runner
  | .call (.finish tid), u | .call (.block tid), u | .call (.unblock tid), u => u = tid
  | _, _ => False

namespace Arbiter

open Critical Ledger

variable {C σ α : Type} {arb : Arbiter C σ} {m : Ledger C σ} {tid : ThreadId} {c : C}
  {P : ThreadId → Prop}

/-! ## The ends of each section -/

theorem Arrives.shifts [Context C] {r : EStateM.Result Fault (Ledger C σ) (Arrival C)}
    (hb : m.table.Balanced m.captured m.runner) (hr : Arrives arb tid c m r) :
    m.Shifts (fun u => u = tid ∨ u = m.runner ∨ u = (left r).runner) (left r) := by
  cases hr with
  | unknown => exact shifts_of_eq fun _ => rfl
  | inside | astray => exact m.shifts_withSaved tid c
  | returned => exact Shifts.withSaved (shifts_of_eq fun _ => rfl) _ _
  | joined hs hset =>
    have hjoins {P : ThreadId → Prop} (htid : P tid) : m.Shifts P (m.entered arb.scheduler tid c) :=
      shifts_entered htid hs
    cases hset with
    | astray | unowned | leaderless | waits => exact (hjoins (.inl rfl)).of_eq fun _ => rfl
    | refused => exact (hjoins (.inl rfl)).of_eq fun _ => Table.state?_save
    | took => exact Shifts.withSaved ((hjoins (.inl rfl)).of_eq fun _ => rfl) _ _
    | @paid d d' x next s l ho he hn hr hd ha hnext hx =>
      have hmore : m.captured + 1 = 2 := hn
      have h0 : m.captured ≠ 0 := by omega
      rw [entered_runner_of_later h0] at hr
      have hpaid : m.Shifts (fun u => u = tid ∨ u = m.runner ∨ u = next)
          ((((m.entered arb.scheduler tid c).replaced next d' s).debtPaid l).ledBy tid l) :=
        (shifts_settled hs h0 hb hr hnext d' s).of_eq fun _ => by rw [ledBy_table, debtPaid_table]
      exact hpaid.withSaved _ _

theorem Looks.shifts [Context C] {r : EStateM.Result Fault (Ledger C σ) (Arrival C)}
    (hr : Looks arb tid m r) : m.Shifts P (left r) := by
  cases hr with
  | unknown | unsaved | leaderless | waits => exact shifts_of_eq fun _ => rfl
  | released | took => exact Shifts.withSaved (shifts_of_eq fun _ => rfl) _ _

theorem Departs.shifts [Context C] {r : EStateM.Result Fault (Ledger C σ) (Resume C)}
    (hb : m.table.Balanced m.captured m.runner) (hr : Departs arb tid c m r) :
    m.Shifts (fun u => u = m.runner ∨ u = (left r).runner) (left r) := by
  cases hr with
  | foreign | leaderless => exact shifts_of_eq fun _ => rfl
  | lone | refused | owesAlready | owed => exact shifts_of_eq fun _ => Table.state?_save
  | @shipped d x next s log he hr hne hn ha hnext hx =>
    exact Shifts.withSaved ((shifts_replaced hb hr hnext d s).of_eq fun _ => rfl) _ _
  | @handedOver d next s log he hr htid hn ha hnext =>
    exact Shifts.withSaved ((shifts_replaced hb (hr ▸ htid) hnext d s).of_eq fun _ => rfl) _ _

theorem Switches.shifts [Context C] {r : EStateM.Result Fault (Ledger C σ) (Resume C)}
    (hb : m.table.Balanced m.captured m.runner) (hr : Switches arb tid c m r) :
    m.Shifts (fun u => u = m.runner ∨ u = (left r).runner) (left r) := by
  cases hr with
  | refused | leaderless => exact shifts_of_eq fun _ => rfl
  | switched hcheck hr hx =>
    obtain ⟨-, -, -, hidle⟩ := of_checkSwitch hcheck
    exact (shifts_switched hb hr hidle _ _).withSaved _ _

theorem Starts.shifts [Context C] {r : EStateM.Result Fault (Ledger C σ) C}
    (hr : Starts arb tid c m r) : m.Shifts P (left r) := by
  cases hr <;> exact shifts_of_eq fun _ => rfl

theorem Finishes.shifts {r : EStateM.Result Fault (Ledger C σ) Unit} (htid : P tid)
    (hr : Finishes arb tid m r) : m.Shifts P (left r) := by
  cases hr with
  | unknown | refused | outside => exact shifts_of_eq fun _ => rfl
  | last hs => exact shifts_mark htid hs .goesOut fun _ => rfl

theorem Blocks.shifts {r : EStateM.Result Fault (Ledger C σ) Unit} (htid : P tid)
    (hr : Blocks tid m r) : m.Shifts P (left r) := by
  cases hr with
  | unknown | refused | last => exact shifts_of_eq fun _ => rfl
  | blocked hs => exact shifts_mark htid hs .isBlocked fun _ => rfl

theorem Unblocks.shifts {r : EStateM.Result Fault (Ledger C σ) Unit} (htid : P tid)
    (hr : Unblocks tid m r) : m.Shifts P (left r) := by
  cases hr with
  | unknown | refused => exact shifts_of_eq fun _ => rfl
  | unblocked hs => exact shifts_mark htid hs .isUnblocked fun _ => rfl

theorem Edits.shifts {r : EStateM.Result Fault (Ledger C σ) α} (hr : Edits tid m r) :
    m.Shifts P (left r) := by
  cases hr with
  | refused => exact shifts_of_eq fun _ => rfl
  | edited => exact m.shifts_withSaved _ _

theorem shifts_armBlock (m : Ledger C σ) : m.Shifts P (left (armBlock m)) := by
  rw [armBlock_apply]
  split <;> exact shifts_of_eq fun _ => rfl

theorem shifts_planUnit (arb : Arbiter C σ) (u : CodeUnit) (m : Ledger C σ) :
    m.Shifts P (left (arb.planUnit u m)) := by
  obtain ⟨e, h⟩ | ⟨plan, log, h⟩ := arb.planUnit_apply u m <;>
    exact h ▸ shifts_of_eq fun _ => rfl

/-! ## Any event -/

variable [Context C]

/-- **What a call changes about the threads**, whether it succeeds or fails. -/
theorem shifts_perform (arb : Arbiter C σ) (hb : m.table.Balanced m.captured m.runner) (call : Call C) :
    m.Shifts (Event.Concerns m (left (arb.perform call m)) (.call call)) (left (arb.perform call m)) := by
  cases call with
  | start tid c => exact left_answer (m.Shifts _) (arb.startThread_outcome tid c m).shifts
  | finish tid => exact left_answer (m.Shifts _) ((arb.endThread_outcome tid m).shifts rfl)
  | arrive tid c =>
    exact left_answer (fun n => m.Shifts (Event.Concerns m n (.call (.arrive tid c))) n)
      ((arrive_outcome hb).shifts hb)
  | depart tid c =>
    exact left_answer (fun n => m.Shifts (Event.Concerns m n (.call (.depart tid c))) n)
      ((depart_outcome hb).shifts hb)
  | switch tid c =>
    exact left_answer (fun n => m.Shifts (Event.Concerns m n (.call (.switch tid c))) n)
      ((switch_outcome hb).shifts hb)
  | plan u => exact left_answer (m.Shifts _) (arb.shifts_planUnit u m)
  | armBlock => exact left_answer (m.Shifts _) (shifts_armBlock m)
  | block tid => exact left_answer (m.Shifts _) ((arb.block_outcome tid m).shifts rfl)
  | unblock tid => exact left_answer (m.Shifts _) ((arb.unblock_outcome tid m).shifts rfl)
  | readRegister tid r | writeRegister tid r v | copyContext tid | replaceContext tid c =>
    exact left_answer (m.Shifts _) (editContext_outcome tid _ m).shifts

theorem shifts_react (arb : Arbiter C σ) (hb : m.table.Balanced m.captured m.runner) (e : Event C σ) :
    m.Shifts (e.Concerns m (arb.react m e)) (arb.react m e) := by
  cases e with
  | call call => exact arb.shifts_perform hb call
  | lookAgain tid => exact (lookAgain_outcome hb).shifts
  | takePermit tid => exact shifts_of_eq fun _ => rfl
  | edit tid f => exact (editContext_outcome tid _ m).shifts
  | think s => exact shifts_of_eq fun _ => rfl

theorem capacity_follow (arb : Arbiter C σ) (h : m.Sound) (es : List (Event C σ)) :
    (arb.follow m es).table.capacity = m.table.capacity := by
  refine of_follow (P := fun n => n.table.capacity = m.table.capacity) (fun n e hs hn => ?_) es h rfl
  have hcap := (arb.sound_react hs e).balanced.capacity_le
  exact (Shifts.capacity_eq (arb.shifts_react hs.balanced e) hs.balanced.capacity_le hcap).trans hn

/-- **Threads change state only as they may, and only where they belong.**  Whatever has happened to a new
arbiter, and whatever happens next, succeeds or fails: each thread keeps its state, or it is one of those
that the event is about and makes one of the listed changes.  So no thread goes out of the program that did
not run before, no blocked thread runs without having been idle, and no thread is blocked while it is
outside. -/
theorem only_legal_changes {scheduler : Scheduler C σ} {initial : σ} {config : Config}
    {setup setup' : Setup C σ} {es : List (Event C σ)} {n : Ledger C σ}
    (h : create scheduler initial config setup = .ok (arb, m) setup') (hn : arb.follow m es = n)
    (e : Event C σ) :
    n.Shifts (e.Concerns n (arb.react n e)) (arb.react n e) ∧
      ∀ u,
        (n.table.state? u = some .idle ∨ n.table.state? u = some .blocked →
          (arb.react n e).table.state? u ≠ some .uncaptured) ∧
        (n.table.state? u = some .blocked → (arb.react n e).table.state? u ≠ some .running) ∧
        (n.table.state? u = some .uncaptured → (arb.react n e).table.state? u ≠ some .blocked) := by
  have hb := (hn ▸ arb.sound_foldl es (sound_of_create h)).balanced
  have hshifts := arb.shifts_react hb e
  refine ⟨hshifts, fun u => ⟨?_, fun hs => ?_, fun hs => ?_⟩⟩
  · rintro (hs | hs)
    · exact hshifts.ne_of hs nofun nofun
    · exact hshifts.ne_of hs nofun nofun
  · exact hshifts.ne_of hs nofun nofun
  · exact hshifts.ne_of hs nofun nofun

/-- A thread makes a system call alone, and another one arrives, which is chosen at once. -/
theorem only_legal_changes_owing :
    let n := twoSlots.follow (.fresh 2 {})
      [.call (.arrive ⟨0⟩ (.start ⟨0⟩)), .call (.depart ⟨0⟩ (.start ⟨0⟩))]
    let e : Event Cursor Rotation := .call (.arrive ⟨1⟩ (.start ⟨1⟩))
    n.table.states = [.running, .uncaptured] ∧
      (twoSlots.react n e).table.states = [.uncaptured, .running] ∧
      n.Shifts (e.Concerns n (twoSlots.react n e)) (twoSlots.react n e) := by
  obtain ⟨setup, h⟩ := create_twoSlots
  exact ⟨rfl, rfl, (only_legal_changes h rfl _).1⟩

end Arbiter

end SoleRunner
