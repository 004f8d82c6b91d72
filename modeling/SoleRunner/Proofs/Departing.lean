import SoleRunner.Proofs.OtherSlots
import SoleRunner.Proofs.Refusals
import SoleRunner.Proofs.StateChanges

/-!
# Proofs/Departing — exactly when a departure goes through, and exactly what it does

A departure is the executor's.  With others captured it goes through if and only if the scheduler's answer
is an idle thread, and then it posts one permit: the owner's, who makes the call, or the next runner's, who
takes the role (`DepartedFor`).  Alone it goes through if the call is the executor's own and no uncapture is
owed yet, and then an uncapture is owed and nothing else is different.  That the permit is there afterwards
needs that every thread has a wake slot, which no event changes (`permits_size_follow`).
-/

namespace SoleRunner

/-! ## Every thread has a wake slot -/

namespace Ledger

variable {C σ : Type} {m n : Ledger C σ} {tid u : ThreadId}

/-- A post fills one wake slot, and no other. -/
theorem hasPermit_post_eq (h : tid.index < m.permits.size)
    (hn : n.permits = m.permits.setIfInBounds tid.index true) :
    n.hasPermit u = (m.hasPermit u || u == tid) := by
  rw [Bool.eq_iff_iff, Bool.or_eq_true, beq_iff_eq]
  constructor
  · intro hu
    exact (of_hasPermit_post hu hn).symm
  · rintro (hu | rfl)
    · exact hasPermit_post tid hu hn
    · exact hasPermit_post_self h hn

end Ledger

namespace Arbiter

open Critical

section

variable {C σ : Type} [Context C] {arb : Arbiter C σ} {m : Ledger C σ} {tid : ThreadId} {c : C}

theorem Starts.permits_size {r : EStateM.Result Fault (Ledger C σ) C} (ho : Starts arb tid c m r) :
    (left r).permits.size = m.permits.size := by
  cases ho <;> simp

omit [Context C] in
theorem Finishes.permits_size {r : EStateM.Result Fault (Ledger C σ) Unit} (ho : Finishes arb tid m r) :
    (left r).permits.size = m.permits.size := by
  cases ho <;> simp [Ledger.vacated]

theorem Settles.permits_size {r : EStateM.Result Fault (Ledger C σ) (Arrival C)}
    (ho : Settles arb tid m r) : (left r).permits.size = m.permits.size := by
  cases ho <;> simp

theorem Arrives.permits_size {r : EStateM.Result Fault (Ledger C σ) (Arrival C)}
    (ho : Arrives arb tid c m r) : (left r).permits.size = m.permits.size := by
  cases ho with
  | unknown | inside | astray | returned => simp
  | joined _ hset => exact hset.permits_size

theorem Looks.permits_size {r : EStateM.Result Fault (Ledger C σ) (Arrival C)} (ho : Looks arb tid m r) :
    (left r).permits.size = m.permits.size := by
  cases ho <;> simp

theorem Departs.permits_size {r : EStateM.Result Fault (Ledger C σ) (Resume C)}
    (ho : Departs arb tid c m r) : (left r).permits.size = m.permits.size := by
  cases ho <;> simp

theorem Switches.permits_size {r : EStateM.Result Fault (Ledger C σ) (Resume C)}
    (ho : Switches arb tid c m r) : (left r).permits.size = m.permits.size := by
  cases ho <;> simp

theorem permits_size_perform (arb : Arbiter C σ) (hb : m.table.Balanced m.captured m.runner)
    (call : Call C) : (left (arb.perform call m)).permits.size = m.permits.size := by
  have hanswer {α β : Type} {x : Critical C σ α} {f : α → β} :=
    left_answer (fun n : Ledger C σ => n.permits.size = m.permits.size) (m := m) (x := x) (f := f)
  have hrequest (hcall : call.isHandler = false) :
      (left (arb.perform call m)).permits.size = m.permits.size := by
    rw [(arb.keeps_request hcall m).permits_eq]
  cases call with
  | start tid c => exact hanswer (arb.startThread_outcome tid c m).permits_size
  | finish tid => exact hanswer (arb.endThread_outcome tid m).permits_size
  | arrive tid c => exact hanswer (arrive_outcome hb).permits_size
  | depart tid c => exact hanswer (depart_outcome hb).permits_size
  | switch tid c => exact hanswer (switch_outcome hb).permits_size
  | plan cu => exact hanswer (by rw [(arb.keeps_planUnit cu m).permits_eq])
  | armBlock | block | unblock | readRegister | writeRegister | copyContext | replaceContext =>
    exact hrequest rfl

/-- **No event changes how many wake slots there are.** -/
theorem permits_size_follow (arb : Arbiter C σ) (h : m.Sound) (es : List (Event C σ)) :
    (arb.follow m es).permits.size = m.permits.size := by
  refine of_follow (P := fun n => n.permits.size = m.permits.size) (fun n e hs hn => ?_) es h rfl
  refine Eq.trans ?_ hn
  cases e with
  | call call => exact arb.permits_size_perform hs.balanced call
  | lookAgain tid => exact (lookAgain_outcome hs.balanced).permits_size
  | takePermit tid => exact Array.size_setIfInBounds
  | edit tid f => rw [react, (editContext_outcome tid _ n).keeps.permits_eq]
  | think s => rfl

end

/-- So the runner, and whoever may run next, can be woken. -/
theorem index_lt_permits_size {C σ : Type} [Context C] {scheduler : Scheduler C σ} {initial : σ}
    {config : Config} {setup setup' : Setup C σ} {arb : Arbiter C σ} {m : Ledger C σ} {u : ThreadId}
    {s : ThreadState} {es : List (Event C σ)}
    (h : create scheduler initial config setup = .ok (arb, m) setup')
    (hs : (arb.follow m es).table.state? u = some s) : u.index < (arb.follow m es).permits.size := by
  have hsound := sound_of_create h
  have hlt := Table.index_lt_of_state? hs
  rw [arb.capacity_follow hsound] at hlt
  rw [arb.permits_size_follow hsound]
  obtain ⟨-, -, -, rfl⟩ := of_create_ok h
  rwa [Ledger.fresh, Array.size_replicate, ← Table.capacity_ofCapacity (C := C) config.capacity]

end Arbiter

/-! ## The runner is replaced -/

namespace Ledger

variable {C σ : Type} {m m' : Ledger C σ} {tid next u : ThreadId} {s : σ} {d : C}

/-- **`next` runs instead of the runner**, who has gone out of the program; the scheduler is left in state
`s`.  Roles, permits and debts may have changed as well. -/
structure Replaces (m : Ledger C σ) (next : ThreadId) (s : σ) (m' : Ledger C σ) : Prop where
  owner_outside : m'.table.Outside m.runner
  next_running : m'.table.state? next = some .running
  runner_eq : m'.runner = next
  runnerHint_eq : m'.runnerHint = next
  captured_eq : m'.captured + 1 = m.captured
  armed_eq : m'.armed = m.armed
  armedHint_eq : m'.armedHint = m.armedHint
  scheduler_eq : m'.schedulerState = s
  others : ∀ u, u ≠ next → u ≠ m.runner → m.Spares u m'

theorem replaces_replaced (hb : m.table.Balanced m.captured m.runner) (hr : m.runner ≠ .nobody)
    (hnext : m.table.state? next = some .idle) (d : C) (s : σ) :
    m.Replaces next s (m.replaced next d s) where
  owner_outside := state?_replaced_runner (hb.ne_runner_of_idle hnext) (hb.runner_running hr)
  next_running := state?_replaced_next (hb.ne_runner_of_idle hnext) hnext
  runner_eq := rfl
  runnerHint_eq := rfl
  captured_eq := Nat.sub_add_cancel (hb.captured_pos_of_runner hr)
  armed_eq := rfl
  armedHint_eq := rfl
  scheduler_eq := rfl
  others _ hn hr := spares_replaced s hn hr

/-- Saving a context of the two threads that change anyway does not matter. -/
theorem Replaces.withSaved (h : m.Replaces next s m') (hu : u = next ∨ u = m.runner) (d : C) :
    m.Replaces next s (m'.withSaved u d) where
  owner_outside := Table.state?_save.trans h.owner_outside
  next_running := Table.state?_save.trans h.next_running
  runner_eq := h.runner_eq
  runnerHint_eq := h.runnerHint_eq
  captured_eq := h.captured_eq
  armed_eq := h.armed_eq
  armedHint_eq := h.armedHint_eq
  scheduler_eq := h.scheduler_eq
  others v hn hr := by
    refine (h.others v hn hr).withSaved ?_
    rintro rfl
    exact hu.elim hn hr

/-- Nor does what is kept beside the threads. -/
theorem Replaces.withRest (h : m.Replaces next s m') (e : ThreadId) (o : Bool) (permits : Array Bool)
    (stats : Stats) (log : Array Log.Entry) :
    m.Replaces next s { m' with executor := e, owesUncapture := o, permits, stats, log } :=
  ⟨h.owner_outside, h.next_running, h.runner_eq, h.runnerHint_eq, h.captured_eq, h.armed_eq,
    h.armedHint_eq, h.scheduler_eq, fun u hn hr => (h.others u hn hr).trans (.of_table rfl)⟩

/-- **What a departure in favour of `next` makes of the ledger**: the runner is replaced and woken to make
its call, unless it is the executor itself, who gives up the role and wakes `next` to take it. -/
structure DepartedFor (m : Ledger C σ) (tid next : ThreadId) (s : σ) (m' : Ledger C σ) : Prop
    extends Replaces m next s m' where
  executor_eq : m'.executor = if m.runner = tid then .nobody else tid
  hasPermit_eq : ∀ u, m'.hasPermit u = (m.hasPermit u || u == if m.runner = tid then next else m.runner)
  owes_eq : m'.owesUncapture = m.owesUncapture

end Ledger

namespace Arbiter

open Critical

variable {C σ : Type} [Context C] {arb : Arbiter C σ} {m m' : Ledger C σ} {tid : ThreadId} {c : C}
  {r : Resume C}

theorem Departs.departedFor (hb : m.table.Balanced m.captured m.runner)
    (hpermits : ∀ u s, m.table.state? u = some s → u.index < m.permits.size) (hn : 2 ≤ m.captured)
    (ho : Departs arb tid c m (.ok r m')) :
    m.DepartedFor tid (arb.scheduler.choose m.runner c m.schedulerState).1
      (arb.scheduler.choose m.runner c m.schedulerState).2.2 m' := by
  cases ho with
  | @shipped d x next s log he hr hne _ ha hnext hx =>
    have hslot := hpermits _ _ (hb.runner_running hr)
    rw [ha]
    have hreplaces := Ledger.replaces_replaced hb hr hnext d s
    refine ⟨(hreplaces.withRest _ _ _ _ _).withSaved (.inl rfl) _, ?_, fun u => ?_, rfl⟩
    · rw [if_neg hne]
      exact he
    · rw [if_neg hne]
      exact Ledger.hasPermit_post_eq hslot rfl
  | @handedOver d next s log he hr htid _ ha hnext =>
    subst hr
    have hslot := hpermits _ _ hnext
    rw [ha]
    have hreplaces := Ledger.replaces_replaced hb htid hnext d s
    refine ⟨(hreplaces.withRest _ _ _ _ _).withSaved (.inr rfl) _, ?_, fun u => ?_, rfl⟩
    · rw [if_pos rfl]
      rfl
    · rw [if_pos rfl]
      exact Ledger.hasPermit_post_eq hslot rfl
  | owed _ _ _ hlone => exact absurd hn (Nat.not_le.mpr hlone)

/-! ## Alone -/

/-- An executor that departs alone is in debt, and nothing else is different. -/
theorem Departs.owing (hn : m.captured = 1) (ho : Departs arb tid c m (.ok r m')) :
    Ledger.Untouched { m with owesUncapture := true } m' ∧ m'.schedulerState = m.schedulerState ∧
      ∀ u, u ≠ m.runner → m.Spares u m' := by
  cases ho with
  | shipped _ _ _ hn' | handedOver _ _ _ hn' => omega
  | @owed log _ hr =>
    subst hr
    have huntouched := Ledger.untouched_withSaved { m with owesUncapture := true } m.runner
      (arb.stampPlain c)
    refine ⟨huntouched.withRest _ _ _, rfl, fun u hu => ?_⟩
    exact Ledger.Spares.withSaved (.of_table rfl) hu

/-- It does not ask the scheduler. -/
theorem depart_of_alone (hb : m.table.Balanced m.captured m.runner) (he : m.executor = m.runner)
    (hr : m.runner ≠ .nobody) (hn : m.captured = 1) (p : Scheduler C σ) :
    ({ arb with scheduler := p } : Arbiter C σ).depart m.runner c m = arb.depart m.runner c m := by
  have hlone : ¬ 2 ≤ m.captured := by omega
  rw [depart_of_own hb he hr, depart_of_own hb he hr, if_neg hlone, if_neg hlone]
  rfl

/-- **A departure, exactly.**  Whatever has happened to a new arbiter, and whoever calls while a thread
runs, with whatever context and whatever the scheduler would answer: the departure goes through if and only
if the caller is the executor, and either others are captured and the answer is an idle thread, or the
caller is alone in its own code and owes no uncapture.  With others captured that thread runs then, and one
permit is posted (`DepartedFor`).  Alone the caller owes an uncapture then; no state, role, count, arm or
permit changes, and the scheduler is not asked. -/
theorem depart_iff_answer_idle {scheduler : Scheduler C σ} {initial : σ} {config : Config}
    {setup setup' : Setup C σ} {es : List (Event C σ)} {n : Ledger C σ}
    (h : create scheduler initial config setup = .ok (arb, m) setup') (hn : arb.follow m es = n)
    (hr : n.runner ≠ .nobody) (tid : ThreadId) (c : C) :
    let answer := arb.scheduler.choose n.runner c n.schedulerState
    ((∃ r m', arb.depart tid c n = .ok r m') ↔ n.executor = tid ∧
      (2 ≤ n.captured ∧ n.table.state? answer.1 = some .idle ∨
        n.captured = 1 ∧ n.runner = tid ∧ n.owesUncapture = false)) ∧
    ∀ r m', arb.depart tid c n = .ok r m' →
      (2 ≤ n.captured → n.DepartedFor tid answer.1 answer.2.2 m') ∧
      (n.captured = 1 → Ledger.Untouched { n with owesUncapture := true } m' ∧
        m'.schedulerState = n.schedulerState ∧ (∀ u, u ≠ n.runner → n.Spares u m') ∧
        ∀ p, ({ arb with scheduler := p } : Arbiter C σ).depart tid c n = arb.depart tid c n) := by
  intro answer
  have hb := (hn ▸ arb.sound_foldl es (sound_of_create h)).balanced
  have hpos := hb.captured_pos_of_runner hr
  have hpermits (u : ThreadId) (s : ThreadState) (hs : n.table.state? u = some s) :
      u.index < n.permits.size := by
    subst hn
    exact index_lt_permits_size h hs
  have hok : (∃ r m', arb.depart tid c n = .ok r m') ↔ n.executor = tid ∧
      (2 ≤ n.captured ∧ n.table.state? answer.1 = some .idle ∨
        n.captured = 1 ∧ n.runner = tid ∧ n.owesUncapture = false) := by
    rw [depart_ok_iff hb, and_iff_right hr, show n.captured < 2 ↔ n.captured = 1 by omega]
  refine ⟨hok, fun r m' hdone => ?_⟩
  have ho : Departs arb tid c n (.ok r m') := hdone ▸ depart_outcome hb
  refine ⟨fun hmany => ho.departedFor hb hpermits hmany, fun halone => ?_⟩
  obtain ⟨he, hmany | ⟨-, htid, -⟩⟩ := hok.mp ⟨r, m', hdone⟩
  · omega
  · obtain ⟨hkept, hs, hspares⟩ := ho.owing halone
    subst htid
    exact ⟨hkept, hs, hspares, fun p => depart_of_alone hb he hr halone p⟩

/-- The first of two threads runs the second one's code and comes to a system call: it goes on with its own
code, and the second one is woken. -/
theorem depart_iff_answer_idle_rotation :
    let n := twoSlots.follow (.fresh 2 {}) [.call (.arrive ⟨0⟩ (.start ⟨0⟩)),
      .call (.arrive ⟨1⟩ (.start ⟨1⟩)),
      .call (.switch ⟨0⟩ (twoSlots.stampExecutor ⟨1⟩ (.start ⟨0⟩))), .think ⟨[⟨0⟩]⟩]
    n.runner = ⟨1⟩ ∧ ∃ r m', twoSlots.depart ⟨0⟩ (.start ⟨1⟩) n = .ok r m' ∧
      n.DepartedFor ⟨0⟩ ⟨0⟩ ⟨[]⟩ m' ∧ m'.executor = ⟨0⟩ ∧ ∀ u, m'.hasPermit u = (u == ⟨1⟩) := by
  intro n
  obtain ⟨setup, h⟩ := create_twoSlots
  obtain ⟨hok, hdone⟩ := depart_iff_answer_idle (n := n) h rfl (by decide) ⟨0⟩ (.start ⟨1⟩)
  obtain ⟨r, m', hdepart⟩ := hok.mpr ⟨rfl, .inl ⟨by decide, rfl⟩⟩
  have hfor : n.DepartedFor ⟨0⟩ ⟨0⟩ ⟨[]⟩ m' := (hdone r m' hdepart).1 (by decide)
  refine ⟨rfl, r, m', hdepart, hfor, hfor.executor_eq, fun u => ?_⟩
  have hnone : n.hasPermit u = false := by
    change (#[false, false][u.index]?.getD false) = false
    rcases u.index with _ | _ | i <;> rfl
  rw [hfor.hasPermit_eq, hnone]
  rfl

end Arbiter

end SoleRunner
