import SoleRunner.Proofs.Choosing
import SoleRunner.Proofs.Refusals

/-!
# Proofs/FailedArrival — what an arrival that fails leaves behind

An arrival saves its context and joins before it settles an uncapture that is owed, and neither is undone
if that fails.  So a thread from outside that fails to arrive stays captured: it cannot arrive any more,
whatever the scheduler answers then, even where the same call would have gone through with another answer.
A thread that is inside already loses the context that was saved for it, and nothing else
(`Arbiter.arrive_failed`).
-/

namespace SoleRunner

namespace Ledger

variable {C σ : Type} {m m' : Ledger C σ} {tid : ThreadId} {c : C} {p : Scheduler C σ}

/-! ## A debt has a debtor -/

/-- If an uncapture is owed, there is a runner to be uncaptured. -/
def HasDebtor (m : Ledger C σ) : Prop := m.owesUncapture = true → m.runner ≠ .nobody

theorem HasDebtor.of_keeps (h : m.HasDebtor) (hk : m.Keeps m') : m'.HasDebtor := by
  rw [HasDebtor, hk.owes_eq, hk.runner_eq]
  exact h

theorem HasDebtor.entered (h : m.HasDebtor) (htid : tid ≠ .nobody) : (m.entered p tid c).HasDebtor := by
  intro ho
  by_cases h0 : m.captured = 0
  · change (if m.captured = 0 then tid else m.runner) ≠ .nobody
    rw [if_pos h0]
    exact htid
  · rw [entered_runner_of_later h0]
    exact h ho

end Ledger

namespace Arbiter

open Critical Ledger

variable {C σ : Type} {arb : Arbiter C σ} {m k : Ledger C σ} {tid : ThreadId} {c : C} {e : Fault}

theorem Settles.hasDebtor [Context C] {r : EStateM.Result Fault (Ledger C σ) (Arrival C)}
    (h : m.HasDebtor) (hr : Settles arb tid m r) : (left r).HasDebtor := by
  cases hr with
  | astray | unowned | refused | leaderless | took | waits => exact h
  | paid => exact nofun

theorem Arrives.hasDebtor [Context C] {r : EStateM.Result Fault (Ledger C σ) (Arrival C)}
    (hb : m.table.Balanced m.captured m.runner) (h : m.HasDebtor) (hr : Arrives arb tid c m r) :
    (left r).HasDebtor := by
  cases hr with
  | unknown | inside | astray => exact h
  | returned => exact nofun
  | joined hs hr => exact hr.hasDebtor (h.entered (hb.ne_nobody hs))

theorem Looks.hasDebtor [Context C] {r : EStateM.Result Fault (Ledger C σ) (Arrival C)}
    (h : m.HasDebtor) (hr : Looks arb tid m r) : (left r).HasDebtor := by
  cases hr <;> exact h

theorem Departs.hasDebtor [Context C] {r : EStateM.Result Fault (Ledger C σ) (Resume C)}
    (hb : m.table.Balanced m.captured m.runner) (h : m.HasDebtor) (hr : Departs arb tid c m r) :
    (left r).HasDebtor := by
  cases hr with
  | foreign | leaderless | lone | refused | owesAlready => exact h
  | shipped _ _ _ _ _ hnext => exact fun _ => hb.ne_nobody hnext
  | handedOver _ _ _ _ _ hnext => exact fun _ => hb.ne_nobody hnext
  | owed _ hr htid => exact fun _ => hr ▸ htid

theorem Switches.hasDebtor [Context C] {r : EStateM.Result Fault (Ledger C σ) (Resume C)}
    (hb : m.table.Balanced m.captured m.runner) (h : m.HasDebtor) (hr : Switches arb tid c m r) :
    (left r).HasDebtor := by
  cases hr with
  | refused | leaderless => exact h
  | switched hcheck =>
    obtain ⟨-, -, -, hidle⟩ := of_checkSwitch hcheck
    exact fun _ => hb.ne_nobody hidle

theorem Starts.hasDebtor [Context C] {r : EStateM.Result Fault (Ledger C σ) C} (h : m.HasDebtor)
    (hr : Starts arb tid c m r) : (left r).HasDebtor := by
  cases hr <;> exact h

theorem Finishes.hasDebtor {r : EStateM.Result Fault (Ledger C σ) Unit} (h : m.HasDebtor)
    (hr : Finishes arb tid m r) : (left r).HasDebtor := by
  cases hr with
  | unknown | refused | outside => exact h
  | last => exact nofun

variable [Context C]

theorem hasDebtor_perform (arb : Arbiter C σ) (hb : m.table.Balanced m.captured m.runner)
    (h : m.HasDebtor) (call : Call C) : (left (arb.perform call m)).HasDebtor := by
  cases call with
  | start tid c => exact left_answer HasDebtor ((arb.startThread_outcome tid c m).hasDebtor h)
  | finish tid => exact left_answer HasDebtor ((arb.endThread_outcome tid m).hasDebtor h)
  | arrive tid c => exact left_answer HasDebtor ((arrive_outcome hb).hasDebtor hb h)
  | depart tid c => exact left_answer HasDebtor ((depart_outcome hb).hasDebtor hb h)
  | switch tid c => exact left_answer HasDebtor ((switch_outcome hb).hasDebtor hb h)
  | plan u => exact left_answer HasDebtor (h.of_keeps (arb.keeps_planUnit u m))
  | armBlock | block | unblock | readRegister | writeRegister | copyContext | replaceContext =>
    exact h.of_keeps (arb.keeps_request rfl m)

theorem hasDebtor_react (arb : Arbiter C σ) (m : Ledger C σ) (ev : Event C σ) (hs : m.Sound)
    (h : m.HasDebtor) : (arb.react m ev).HasDebtor := by
  cases ev with
  | call call => exact arb.hasDebtor_perform hs.balanced h call
  | lookAgain tid => exact (lookAgain_outcome hs.balanced).hasDebtor h
  | takePermit | think => exact h
  | edit tid f => exact h.of_keeps (editContext_outcome tid _ m).keeps

/-! ## A thread from outside -/

/-- What a settlement that fails leaves as it was. -/
theorem Settles.kept (h : Settles arb tid m (.error e k)) :
    k.captured = m.captured ∧ k.runner = m.runner ∧ ∀ u, k.table.state? u = m.table.state? u := by
  cases h with
  | astray | unowned | leaderless => exact ⟨rfl, rfl, fun _ => rfl⟩
  | refused => exact ⟨rfl, rfl, fun _ => Table.state?_save⟩

/-- An arrival can fail after it has joined only if others are captured. -/
theorem Arrives.captured_ne_zero (hb : m.table.Balanced m.captured m.runner) (hd : m.HasDebtor)
    (hs : m.table.Outside tid) (h : Arrives arb tid c m (.error e k)) : m.captured ≠ 0 := by
  intro h0
  have hfree : m.owesUncapture ≠ true := fun ho => hd ho (hb.runner_eq_nobody h0)
  have hrunner : (m.entered arb.scheduler tid c).runner = tid := if_pos h0
  have hsettles := h.of_outside hs
  -- Whoever comes first finds no debt, and is the runner whose code it goes on with.
  cases hsettles with
  | astray ho | unowned ho | refused ho => exact hfree ho
  | leaderless _ _ hr => exact hb.ne_nobody hs (hrunner.symm.trans hr)

/-- A thread that is idle cannot arrive. -/
theorem arrive_of_idle (arb : Arbiter C σ) (c : C) (hs : m.table.state? tid = some .idle) :
    arb.arrive tid c m = .error (.broken .arrivesUncaptured) (m.withSaved tid c) := by
  rw [arrive, bind_of_ok (storeContext_of_some hs),
    bind_of_ok (stateOf_of_some (Table.state?_save.trans hs))]
  rfl

/-- Where the scheduler's answer was refused, there was a better one. -/
theorem exists_answer (hb : m.table.Balanced m.captured m.runner) (hs : m.table.Outside tid)
    {v : Violation} (h : Arrives arb tid c m (.error (.violation v) k)) :
    ∃ choose a n, (arb.answering choose).arrive tid c m = .ok a n := by
  have hsettles := h.of_outside hs
  cases hsettles with
  | refused ho he hn hr hd =>
    have hasks := asks_arrive hb hs rfl ho he hr hn hd
    obtain ⟨u, -, -, hu⟩ := hasks.idle
    obtain ⟨a, n, ha, -⟩ := hasks.chosen (fun _ c s => (u, c, s)) u _ _ rfl hu
    exact ⟨_, a, n, ha⟩

/-! ## A thread that is inside already -/

/-- An arrival does not read the context that was saved before. -/
theorem arrive_withSaved (arb : Arbiter C σ) (c d : C) {s : ThreadState}
    (hs : m.table.state? tid = some s) :
    arb.arrive tid c (m.withSaved tid d) = arb.arrive tid c m := by
  have hs' : (m.withSaved tid d).table.state? tid = some s := Table.state?_save.trans hs
  rw [arrive, bind_of_ok (storeContext_of_some hs'), bind_of_ok (storeContext_of_some hs),
    withSaved_withSaved]

theorem Arrives.eq_withSaved (hin : m.table.Inside tid) (h : Arrives arb tid c m (.error e k)) :
    k = m.withSaved tid c := by
  cases h with
  | unknown hs =>
    obtain ⟨s, hs', -⟩ := hin
    nomatch hs.symm.trans hs'
  | inside | astray => rfl
  | joined hs => exact absurd hin (Table.Outside.not_inside hs)

/-! ## Any arrival that fails -/

/-- The failed arrival of a thread from outside is not undone. -/
theorem Arrives.left_inside (hb : m.table.Balanced m.captured m.runner) (hd : m.HasDebtor)
    (hs : m.table.Outside tid) (h : Arrives arb tid c m (.error e k)) :
    k.captured = m.captured + 1 ∧ k.runner = m.runner ∧ k.table.state? tid = some .idle ∧
      ∀ u, u ≠ tid → k.table.state? u = m.table.state? u := by
  have h0 := h.captured_ne_zero hb hd hs
  obtain ⟨hcaptured, hrunner, hstates⟩ := (h.of_outside hs).kept
  exact ⟨hcaptured, hrunner.trans (entered_runner_of_later h0),
    (hstates tid).trans (state?_entered_of_later h0 hs),
    fun u hu => (hstates u).trans (state?_entered_of_ne hu)⟩

/-- **What an arrival that fails leaves behind**: all is as it was only if the thread does not exist, or is
inside with the very context that it arrives with.  A thread inside just loses its saved context, and the
arrival can be repeated as if it had not been made.  A thread from outside stays captured: no answer of
the scheduler lets it arrive any more, not even the one that would have done so before. -/
theorem arrive_failed {scheduler : Scheduler C σ} {initial : σ} {config : Config}
    {setup setup' : Setup C σ} {es : List (Event C σ)} {n : Ledger C σ}
    (h : create scheduler initial config setup = .ok (arb, m) setup') (hn : arb.follow m es = n)
    (herr : arb.arrive tid c n = .error e k) :
    ((n.SameBooks k ∧ ∀ u, k.table.saved? u = n.table.saved? u) ↔
      n.table.state? tid = none ∨ n.table.Inside tid ∧ n.table.saved? tid = some c) ∧
    (n.table.Inside tid →
      n.SameBooks k ∧ (∀ u, u ≠ tid → k.table.saved? u = n.table.saved? u) ∧
        ∀ choose c', (arb.answering choose).arrive tid c' k =
          (arb.answering choose).arrive tid c' n) ∧
    (n.table.Outside tid →
      (k.captured = n.captured + 1 ∧ k.runner = n.runner ∧ k.table.state? tid = some .idle ∧
        ∀ u, u ≠ tid → k.table.state? u = n.table.state? u) ∧
        (∀ choose c', ∃ k', (arb.answering choose).arrive tid c' k =
          .error (.broken .arrivesUncaptured) k') ∧
        ∀ v, e = .violation v → ∃ choose a n', (arb.answering choose).arrive tid c n = .ok a n') := by
  have hs := hn ▸ arb.sound_foldl es (sound_of_create h)
  have hb := hs.balanced
  have hdebtor : n.HasDebtor := by
    have hfresh := sound_of_create h
    obtain ⟨-, -, -, rfl⟩ := of_create_ok h
    exact hn ▸ of_follow arb.hasDebtor_react es hfresh nofun
  have hr : Arrives arb tid c n (.error e k) := herr ▸ arrive_outcome hb
  refine ⟨⟨fun ⟨hbooks, hsaved⟩ => ?_, ?_⟩, fun hin => ?_, fun hout => ?_⟩
  · cases hstate : n.table.state? tid with
    | none => exact .inl rfl
    | some s =>
      rcases eq_or_ne s .uncaptured with rfl | hne
      · have hmore := (hr.left_inside hb hdebtor hstate).1
        rw [hbooks.captured_eq] at hmore
        exact absurd hmore (Nat.ne_of_lt (Nat.lt_succ_self _))
      · have hin : n.table.Inside tid := Table.inside_of_state hstate hne
        refine .inr ⟨hin, ?_⟩
        rw [← hsaved, hr.eq_withSaved hin]
        exact Table.saved?_save_self hstate
  · rintro (hnone | ⟨hin, hsaved⟩)
    · cases hr with
      | unknown => exact ⟨(Untouched.refl _).toSameBooks, fun _ => rfl⟩
      | inside hs' | astray hs' | joined hs' => nomatch hnone.symm.trans hs'
    · rw [hr.eq_withSaved hin]
      refine ⟨(n.untouched_withSaved tid c).toSameBooks, fun u => ?_⟩
      rcases eq_or_ne u tid with rfl | hu
      · obtain ⟨s, hstate, -⟩ := hin
        exact (Table.saved?_save_self hstate).trans hsaved.symm
      · exact Table.saved?_save_of_ne hu
  · rw [hr.eq_withSaved hin]
    obtain ⟨s, hstate, -⟩ := hin
    exact ⟨(n.untouched_withSaved tid c).toSameBooks, fun u hu => Table.saved?_save_of_ne hu,
      fun choose c' => (arb.answering choose).arrive_withSaved c' c hstate⟩
  · have hleft := hr.left_inside hb hdebtor hout
    refine ⟨hleft, fun choose c' => ⟨_, (arb.answering choose).arrive_of_idle c' hleft.2.2.1⟩, ?_⟩
    rintro v rfl
    exact exists_answer hb hout hr

/-- A thread makes a system call alone, and the scheduler will choose a thread that does not exist. -/
def owingStrayed : List (Event Cursor Rotation) :=
  [.call (.start ⟨0⟩ (.start ⟨0⟩)), .call (.arrive ⟨0⟩ (.start ⟨0⟩)),
    .call (.depart ⟨0⟩ (.start ⟨0⟩)), .call (.start ⟨1⟩ (.start ⟨1⟩)), .think ⟨[⟨9⟩]⟩]

theorem arrive_failed_owing : ∃ k,
    twoSlots.arrive ⟨1⟩ (.start ⟨1⟩) (twoSlots.follow (.fresh 2 {}) owingStrayed) =
      .error (.violation (.outOfRange ⟨9⟩ 2)) k ∧
    k.captured = 2 ∧ k.table.state? ⟨1⟩ = some .idle ∧
    (∃ k', twoSlots.arrive ⟨1⟩ (.start ⟨1⟩) k = .error (.broken .arrivesUncaptured) k') ∧
    ∃ choose a n', (twoSlots.answering choose).arrive ⟨1⟩ (.start ⟨1⟩)
      (twoSlots.follow (.fresh 2 {}) owingStrayed) = .ok a n' := by
  obtain ⟨setup, h⟩ := create_twoSlots
  obtain ⟨k, hk⟩ : ∃ k, twoSlots.arrive ⟨1⟩ (.start ⟨1⟩) (twoSlots.follow (.fresh 2 {}) owingStrayed) =
      .error (.violation (.outOfRange ⟨9⟩ 2)) k := ⟨_, rfl⟩
  obtain ⟨⟨hmore, -, hidle, -⟩, hagain, hbetter⟩ := (arrive_failed h rfl hk).2.2 rfl
  exact ⟨k, hk, hmore, hidle, hagain twoSlots.scheduler.choose (.start ⟨1⟩), hbetter _ rfl⟩

end Arbiter

end SoleRunner
