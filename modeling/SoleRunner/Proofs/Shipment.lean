import SoleRunner.Proofs.OtherSlots

/-!
# Proofs/Shipment — a system call is shipped to its own thread, once and unaltered

An executor that comes to a system call of another thread leaves it to that thread, which waits in its
arrival: the thread is uncaptured and called (`Shipped`).  Nothing that others do changes that, or the
context that has been saved for it, until the thread looks again; then its arrival ends with this context,
without the marks of an executor.  And no arrival ends in this way unless its thread's system call has
been shipped since the arrival began (`shipment_delivered`).
-/

namespace SoleRunner

namespace Crew

open Critical Arbiter Ledger

variable {C σ : Type} {w w' : Crew C σ} {m : Ledger C σ} {u tid : ThreadId} {mv : Move C σ} {c : C}

/-- **The system call of `u` has been left to `u`**, who waits and is to make it with context `c`. -/
structure Shipped (w : Crew C σ) (u : ThreadId) (c : C) : Prop where
  outside : w.ledger.table.Outside u
  saved : w.ledger.table.saved? u = some c
  waits : ∃ b, w.place u = .inside b

/-- The move is a departure from the code of `u`, by another thread. -/
def Ships (u : ThreadId) (w : Crew C σ) (mv : Move C σ) : Prop :=
  w.ledger.runner = u ∧ ∃ tid, mv = .depart tid ∧ u ≠ tid

namespace Shipped

theorem called (h : w.Shipped u c) (hw : w.Stationed) : w.Called u := by
  obtain ⟨b, hb⟩ := h.waits
  exact hw.released_called u b hb h.outside

theorem ne_runner (h : w.Shipped u c) (hw : w.Stationed) : u ≠ w.ledger.runner :=
  hw.sound.balanced.ne_runner_of_outside h.outside

end Shipped

variable [Context C] {arb : Arbiter C σ}

/-! ## What others do meanwhile -/

/-- A thread that waits goes on waiting until it looks. -/
theorem Moves.waits (hm : Moves arb w mv w') (hlook : mv ≠ .look u) {b : Bool}
    (hb : w.place u = .inside b) : ∃ b, w'.place u = .inside b := by
  have hother {tid : ThreadId} {n : Ledger C σ} {p : Place C} (hu : u ≠ tid) :
      ∃ b, (w.put n tid p).place u = .inside b := ⟨b, (place_put_of_ne hu).trans hb⟩
  have hne {tid : ThreadId} {p : Place C} (hp : w.place tid = p) (hin : ∀ b, p ≠ .inside b) :
      u ≠ tid := by
    rintro rfl
    exact hin b (hp.symm.trans hb)
  cases hm with
  | start hp => exact hother (hne hp nofun)
  | arrive hp => exact hother (hne hp nofun)
  | depart hp => exact hother (hne hp nofun)
  | switch hp => exact hother (hne hp nofun)
  | finish hp => exact hother (hne hp nofun)
  | compute hp => exact hother (hne hp nofun)
  | @wake tid hp hpermit =>
    rcases eq_or_ne u tid with rfl | hu
    · exact ⟨true, place_put_self ..⟩
    · exact hother hu
  | @look tid a m hp ho =>
    refine hother ?_
    rintro rfl
    exact hlook rfl
  | plan => exact ⟨b, hb⟩
  | request => exact ⟨b, hb⟩
  | edit => exact ⟨b, hb⟩
  | think => exact ⟨b, hb⟩

/-- Whoever waits after a move has waited before, or has just arrived. -/
theorem Moves.of_waits (hm : Moves arb w mv w') (harrive : mv ≠ .arrive u) {b : Bool}
    (hb : w'.place u = .inside b) : ∃ b, w.place u = .inside b := by
  have hother {tid : ThreadId} {n : Ledger C σ} {p : Place C}
      (hput : (w.put n tid p).place u = .inside b)
      (hself : u = tid → ∃ b, w.place u = .inside b) : ∃ b, w.place u = .inside b := by
    rcases eq_or_ne u tid with hu | hu
    · exact hself hu
    · exact ⟨b, (place_put_of_ne hu).symm.trans hput⟩
  have hput {tid : ThreadId} {n : Ledger C σ} {p : Place C} (hput : (w.put n tid p).place u = .inside b)
      (hp : ∀ b, p ≠ .inside b) : ∃ b, w.place u = .inside b := by
    refine hother hput ?_
    rintro rfl
    rw [place_put_self] at hput
    exact absurd hput (hp b)
  cases hm with
  | start => exact hput hb nofun
  | arrive =>
    refine hother hb ?_
    rintro rfl
    exact absurd rfl harrive
  | depart => exact hput hb nofun
  | switch => exact hput hb nofun
  | finish => exact hput hb nofun
  | compute => exact hput hb nofun
  | wake hp => exact hother hb fun hu => ⟨false, hu ▸ hp⟩
  | look hp => exact hother hb fun hu => ⟨true, hu ▸ hp⟩
  | plan => exact ⟨b, hb⟩
  | request => exact ⟨b, hb⟩
  | edit => exact ⟨b, hb⟩
  | think => exact ⟨b, hb⟩

/-- **What has been shipped is left alone** until its thread looks again. -/
theorem Moves.shipped (hw : w.Stationed) (hm : Moves arb w mv w') (hlook : mv ≠ .look u)
    (h : w.Shipped u c) : w'.Shipped u c := by
  obtain ⟨b, hb⟩ := h.waits
  have hspared : Spares u w.ledger w'.ledger := by
    cases hmv : mv.isRequest with
    | true =>
      cases hm with
      | request hcall => exact spares_request arb h.outside rfl hcall
      | @edit tid f =>
        exact (editContext_outcome tid (fun c => ((), f c)) w.ledger).spares h.outside rfl
      | _ => nomatch hmv
    | false =>
      cases hm.reaches hw (h.ne_runner hw) (fun _ => ⟨hlook, b, hb⟩) hmv with
      | spared hsp => exact hsp
      | delivered hs => cases hs.symm.trans h.outside
      | appointed hs => cases hs.symm.trans h.outside
  exact ⟨hspared.state_eq.trans h.outside, hspared.saved_eq.trans h.saved, hm.waits hlook hb⟩

/-- Only the executor leaves the program by a newcomer's arrival. -/
theorem inside_of_arrives (hw : w.Stationed) {a : Arrival C} (hne : u ≠ w.ledger.executor)
    (hin : w.ledger.table.Inside u) (ho : Arrives arb tid c w.ledger (.ok a m)) : m.table.Inside u := by
  cases ho with
  | returned => exact inside_withSaved.mpr hin
  | joined hs hset =>
    have hb := entered_balanced hw.sound.balanced arb.scheduler c hs
    have hentered : (w.ledger.entered arb.scheduler tid c).table.Inside u :=
      (inside_entered hs).mpr (.inl hin)
    cases hset with
    | paid howes he hn hr hd ha hnext hx =>
      rw [inside_withSaved, ledBy_table, debtPaid_table, inside_replaced hb hr hnext, he]
      exact ⟨hentered, hne⟩
    | took => exact inside_withSaved.mpr hentered
    | waits => exact hentered

/-- Only the executor, or the runner from whose code another thread departs, leaves the program by a
departure. -/
theorem inside_of_departs_of_not_ships (hw : w.Stationed) {r : Resume C}
    (hno : ¬ Ships u w (.depart tid)) (hne : u ≠ w.ledger.executor) (hin : w.ledger.table.Inside u)
    (ho : Departs arb tid c w.ledger (.ok r m)) : m.table.Inside u := by
  have hb := hw.sound.balanced
  cases ho with
  | shipped he hr hother hn ha hnext hx =>
    rw [inside_withSaved, shipped_table, inside_replaced hb hr hnext]
    refine ⟨hin, ?_⟩
    rintro rfl
    exact hno ⟨rfl, tid, rfl, hother⟩
  | handedOver he hr htid hn ha hnext =>
    rw [inside_withSaved, handedOver_table, inside_replaced hb (hr ▸ htid) hnext, hr, ← he]
    exact ⟨hin, hne⟩
  | owed => exact inside_withSaved.mpr hin

/-- **Nobody but the executor leaves the program unless its system call is shipped.** -/
theorem Moves.inside (hw : w.Stationed) (hm : Moves arb w mv w') (hno : ¬ Ships u w mv)
    (hne : u ≠ w.ledger.executor) (hin : w.ledger.table.Inside u) : w'.ledger.table.Inside u := by
  have hb := hw.sound.balanced
  cases hm with
  | start hp ho =>
    have ho : Starts arb _ _ w.ledger _ := ho ▸ arb.startThread_outcome _ _ w.ledger
    cases ho with
    | started => exact hin
  | arrive hp hg ho => exact inside_of_arrives hw hne hin (ho ▸ arrive_outcome hb)
  | depart hp hg ho => exact inside_of_departs_of_not_ships hw hno hne hin (ho ▸ depart_outcome hb)
  | switch hp hg ho =>
    have ho : Switches arb _ _ w.ledger _ := ho ▸ switch_outcome hb
    cases ho with
    | switched hcheck hr hx =>
      obtain ⟨-, -, -, hnext⟩ := of_checkSwitch hcheck
      exact inside_withSaved.mpr ((inside_switched hb hr hnext).mpr hin)
  | finish hp hg ho =>
    have ho : Finishes arb _ w.ledger _ := ho ▸ arb.endThread_outcome _ w.ledger
    cases ho with
    | outside => exact hin
    | last hs hn he => exact (inside_vacated hs).mpr ⟨hin, he ▸ hne⟩
  | compute => exact hin
  | wake => exact hin
  | look hp ho =>
    have ho : Looks arb _ w.ledger _ := ho ▸ lookAgain_outcome hb
    cases ho with
    | released => exact inside_withSaved.mpr hin
    | took => exact inside_withSaved.mpr hin
    | waits => exact hin
  | plan => exact ((arb.keeps_planUnit _ w.ledger).inside_iff u).mpr hin
  | request hcall => exact ((arb.keeps_request hcall w.ledger).inside_iff u).mpr hin
  | edit => exact ((editContext_outcome _ _ w.ledger).keeps.inside_iff u).mpr hin
  | think => exact hin

/-! ## The shipment itself -/

/-- **A departure from another thread's code ships the system call**, with the context as the scheduler
leaves it. -/
theorem Stationed.ships (hw : w.Stationed) {r : Resume C} (hne : w.ledger.runner ≠ tid)
    (ho : Departs arb tid c w.ledger (.ok r m)) :
    (w.put m tid r.place).Shipped w.ledger.runner
      (arb.scheduler.choose w.ledger.runner c w.ledger.schedulerState).2.1 := by
  have hb := hw.sound.balanced
  cases ho with
  | @shipped d x next s log he hr _ hn ha hnext hx =>
    have hrun := hb.runner_running hr
    have hnext' := hb.ne_runner_of_idle hnext
    rw [ha]
    refine ⟨Table.state?_save.trans (state?_replaced_runner (s := s) hnext' hrun), ?_, ?_⟩
    · exact (saved?_withSaved_of_ne hnext'.symm).trans (saved?_replaced_runner (s := s) hrun)
    · obtain ⟨b, hb⟩ := hw.waits _ (hb.runner_inside hr) (he ▸ hne)
      exact ⟨b, (place_put_of_ne hne).trans hb⟩
  | handedOver he hr => exact absurd hr hne
  | owed he hr => exact absurd hr hne

/-- **When the thread looks, its arrival ends with the context that was shipped.** -/
theorem Shipped.lookAgain (h : w.Shipped u c) (hw : w.Stationed) :
    ∃ m', arb.lookAgain u w.ledger = .ok (.resumed ⟨u, .uncaptured, arb.stampPlain c⟩) m' := by
  have ho : Looks arb u w.ledger (arb.lookAgain u w.ledger) := lookAgain_outcome hw.sound.balanced
  generalize arb.lookAgain u w.ledger = r at ho
  have hin {s : ThreadState} (hs : w.ledger.table.state? u = some s) (hne : s ≠ .uncaptured) : False :=
    hne (Option.some.inj (hs.symm.trans h.outside))
  cases ho with
  | unknown hs => cases hs.symm.trans h.outside
  | unsaved hs hc => cases hc.symm.trans h.saved
  | released hs hc =>
    cases hc.symm.trans h.saved
    exact ⟨_, rfl⟩
  | leaderless hs hne => exact (hin hs hne).elim
  | took hs hne => exact (hin hs hne).elim
  | waits hs hne => exact (hin hs hne).elim

/-! ## Runs -/

variable {mvs : List (Move C σ)}

/-- A move that is not in a list does not happen in it. -/
theorem HappensIn.of_or {Q : Crew C σ → Move C σ → Prop} {mv : Move C σ} (hmv : mv ∉ mvs)
    (h : w.HappensIn arb (fun v mv' => mv' = mv ∨ Q v mv') mvs) : w.HappensIn arb Q mvs := by
  obtain ⟨pre, mv', post, v, rfl, hrun, rfl | hq⟩ := h
  · exact absurd (List.mem_append_right _ List.mem_cons_self) hmv
  · exact ⟨pre, mv', post, v, rfl, hrun, hq⟩

/-- What has been shipped stays so through a run in which the thread does not look. -/
theorem shipped_of_run (hw : w.Stationed) (h : w.Shipped u c) (hlook : .look u ∉ mvs)
    (hrun : w.run arb mvs = some w') : w'.Stationed ∧ w'.Shipped u c := by
  refine of_run_unless (P := fun w => w.Stationed ∧ w.Shipped u c) (Q := fun _ mv => mv = .look u)
    (fun v v' mv hv hmv hm => ⟨hm.stationed hv.1, hm.shipped hv.1 hmv hv.2⟩) ⟨hw, h⟩ ?_ hrun
  rintro ⟨pre, mv, post, v, rfl, -, rfl⟩
  exact hlook (List.mem_append_right _ List.mem_cons_self)

/-- **A thread that waits stays in the program through a run** in which it does not arrive and its system
call is not shipped. -/
theorem inside_of_run (hw : w.Stationed) (h : ∀ b, w.place u = .inside b → w.ledger.table.Inside u)
    (harrive : .arrive u ∉ mvs) (hno : ¬ w.HappensIn arb (Ships u) mvs) (hrun : w.run arb mvs = some w') :
    w'.Stationed ∧ ∀ b, w'.place u = .inside b → w'.ledger.table.Inside u := by
  refine of_run_unless
    (P := fun w => w.Stationed ∧ ∀ b, w.place u = .inside b → w.ledger.table.Inside u)
    (Q := fun v mv => mv = .arrive u ∨ Ships u v mv) (fun v v' mv hv hq hm => ?_) ⟨hw, h⟩
    (fun hin => hno (hin.of_or harrive)) hrun
  obtain ⟨hv, hinside⟩ := hv
  obtain ⟨hmv, hships⟩ := not_or.mp hq
  refine ⟨hm.stationed hv, fun b hb => ?_⟩
  obtain ⟨b', hb'⟩ := hm.of_waits hmv hb
  exact hm.inside hv hships (hv.ne_executor_of_inside hb') (hinside b' hb')

/-- An arrival that waits is in the program, and one that does not wait ends as the executor. -/
theorem of_arrives {a : Arrival C} (ho : Arrives arb tid c w.ledger (.ok a m)) :
    (a = .waiting → m.table.Inside tid) ∧ ∀ r, a.answer = some r → r.role = .executor := by
  cases ho with
  | returned => exact ⟨nofun, fun r hr => Option.some.inj hr ▸ rfl⟩
  | joined hs hset =>
    cases hset with
    | paid => exact ⟨nofun, fun r hr => Option.some.inj hr ▸ rfl⟩
    | took => exact ⟨nofun, fun r hr => Option.some.inj hr ▸ rfl⟩
    | waits => exact ⟨fun _ => inside_entered_self hs, nofun⟩

/-- A thread that has not been uncaptured does not look to make a system call. -/
theorem role_of_looks {a : Arrival C} {r : Resume C} (hin : w.ledger.table.Inside u)
    (ho : Looks arb u w.ledger (.ok a m)) (hr : a.answer = some r) : r.role = .executor := by
  cases ho with
  | released hs => exact absurd hin (Table.Outside.not_inside hs)
  | took => exact Option.some.inj hr ▸ rfl
  | waits => nomatch hr

/-! ## Who waits -/

/-- **Whoever waits is in the program, or is left a system call to make.** -/
def Accounted (w : Crew C σ) : Prop :=
  ∀ u b, w.place u = .inside b → w.ledger.table.Inside u ∨ ∃ c, w.Shipped u c

/-- Whoever has just waited and has not been uncaptured is in the program, unless its system call is
shipped now. -/
theorem Moves.accounted_of_inside (hw : w.Stationed) (hm : Moves arb w mv w') {b : Bool}
    (hb : w.place u = .inside b) (hin : w.ledger.table.Inside u) :
    w'.ledger.table.Inside u ∨ ∃ c, w'.Shipped u c := by
  by_cases hships : Ships u w mv
  · obtain ⟨rfl, tid, rfl, hne⟩ := hships
    cases hm with
    | depart hp hg ho => exact .inr ⟨_, hw.ships hne (ho ▸ depart_outcome hw.sound.balanced)⟩
  · exact .inl (hm.inside hw hships (hw.ne_executor_of_inside hb) hin)

/-- Whoever has been left a system call does not wait any more once it looks. -/
theorem Moves.accounted_of_shipped (hw : w.Stationed) (hm : Moves arb w mv w') {b : Bool}
    (hb' : w'.place u = .inside b) (h : w.Shipped u c) : w'.Shipped u c := by
  refine hm.shipped hw ?_ h
  rintro rfl
  cases hm with
  | look hp ho =>
    obtain ⟨_, ha⟩ := h.lookAgain hw
    cases ho.symm.trans ha
    rw [place_put_self] at hb'
    nomatch hb'

theorem Moves.accounted (hw : w.Stationed) (h : w.Accounted) (hm : Moves arb w mv w') :
    w'.Accounted := by
  intro u b hb'
  by_cases harrive : mv = .arrive u
  · subst harrive
    cases hm with
    | @arrive _ c last a m hp hg ho =>
      rw [place_put_self] at hb'
      cases a with
      | resumed r => nomatch hb'
      | waiting => exact .inl ((of_arrives (ho ▸ arrive_outcome hw.sound.balanced)).1 rfl)
  · obtain ⟨b₀, hb₀⟩ := hm.of_waits harrive hb'
    obtain hin | ⟨c, hc⟩ := h u b₀ hb₀
    · exact hm.accounted_of_inside hw hb₀ hin
    · exact .inr ⟨c, hm.accounted_of_shipped hw hb' hc⟩

variable {scheduler : Scheduler C σ} {initial : σ} {config : Config} {setup setup' : Setup C σ}

theorem accounted_of_run (h : create scheduler initial config setup = .ok (arb, m) setup')
    (hrun : (new m).run arb mvs = some w) : w.Stationed ∧ w.Accounted :=
  of_run (P := fun w => w.Stationed ∧ w.Accounted)
    (fun _ _ _ hv hm => ⟨hm.stationed hv.1, hm.accounted hv.1 hv.2⟩)
    ⟨stationed_of_create h, fun _ _ hb => nomatch hb⟩ hrun

/-- **System calls are shipped once, and unaltered.**  In every state that a crew of a new arbiter can
reach: when a thread departs from the code of another one, that one is uncaptured, with the context as the
scheduler leaves it, and called; nothing changes that before it looks again; and then its arrival ends
with this context, to which nothing is written but 0 to the one register of the arbiter and nobody to the
other.  No arrival ends in this way in its first section, or in a later one unless since then its thread's
system call has been shipped. -/
theorem shipment_delivered (h : create scheduler initial config setup = .ok (arb, m) setup')
    (hrun : (new m).run arb mvs = some w) :
    (∀ tid u c d last w₁, w.place tid = .outside c last → w.ledger.runner = u → u ≠ tid →
      (arb.scheduler.choose u c w.ledger.schedulerState).2.1 = d → w.next arb (.depart tid) = some w₁ →
      ∀ mvs w₂, .look u ∉ mvs → w₁.run arb mvs = some w₂ →
        w₂.Shipped u d ∧ w₂.Called u ∧
        ∃ m', arb.lookAgain u w₂.ledger = .ok (.resumed ⟨u, .uncaptured,
          Context.setReg (Context.setReg d arb.roleReg 0) arb.choiceReg 0xFFFFFFFFFFFFFFFF⟩) m') ∧
    ∀ u w₁, w.next arb (.arrive u) = some w₁ →
      (∀ r, w₁.answer (.arrive u) = some r → r.role ≠ .uncaptured) ∧
      ∀ mvs w₂ w₃ r, .arrive u ∉ mvs → w₁.run arb mvs = some w₂ → w₂.next arb (.look u) = some w₃ →
        w₃.answer (.look u) = some r → r.role = .uncaptured → w₁.HappensIn arb (Ships u) mvs := by
  have hw := stationed_of_run h hrun
  refine ⟨fun tid u c d last w₁ hp hr hne hd hnext mvs w₂ hlook hrun' => ?_, fun u w₁ hnext => ?_⟩
  · subst hr hd
    have hm := moves_of_next hnext
    have hshipped : w₁.Shipped w.ledger.runner
        (arb.scheduler.choose w.ledger.runner c w.ledger.schedulerState).2.1 := by
      cases hm with
      | depart hp' hg ho =>
        cases hp.symm.trans hp'
        exact hw.ships hne (ho ▸ depart_outcome hw.sound.balanced)
    obtain ⟨hw₂, hs₂⟩ := shipped_of_run (hm.stationed hw) hshipped hlook hrun'
    rw [← stampPlain_eq]
    exact ⟨hs₂, hs₂.called hw₂, hs₂.lookAgain hw₂⟩
  · have hm := moves_of_next hnext
    have hw₁ := hm.stationed hw
    cases hm with
    | @arrive _ c last a n hp hg ho =>
      obtain ⟨hwaits, hrole⟩ := of_arrives (ho ▸ arrive_outcome hw.sound.balanced)
      rw [answer_put rfl, Arrival.last_place]
      refine ⟨fun r hr => hrole r hr ▸ nofun, fun mvs w₂ w₃ r harrive hrun' hnext' hr hun => ?_⟩
      refine Classical.byContradiction fun hno => ?_
      have hinside (b : Bool) (hb : (w.put n u a.place).place u = .inside b) : n.table.Inside u := by
        rw [place_put_self] at hb
        cases a with
        | resumed r => nomatch hb
        | waiting => exact hwaits rfl
      obtain ⟨hw₂, hin⟩ := inside_of_run hw₁ hinside harrive hno hrun'
      cases moves_of_next hnext' with
      | look hp' ho' =>
        rw [answer_put rfl, Arrival.last_place] at hr
        have hexec := role_of_looks (hin true hp') (ho' ▸ lookAgain_outcome hw₂.sound.balanced) hr
        exact nomatch hun.symm.trans hexec

/-- The first of two threads switches to the second one's code and comes to a system call there: the
second is told to make it, with the context that the first has had, and only because of that. -/
theorem shipment_delivered_rotation :
    ∃ v v₁ w w₁ w₂ w₃ : Crew Cursor Rotation,
      (new (.fresh 2 {})).run twoSlots [.start ⟨0⟩ (.start ⟨0⟩), .arrive ⟨0⟩, .start ⟨1⟩ (.start ⟨1⟩)] =
        some v ∧
      v.next twoSlots (.arrive ⟨1⟩) = some v₁ ∧
      v₁.run twoSlots [.compute ⟨0⟩ (Context.setReg (twoSlots.stampExecutor ⟨0⟩ (.start ⟨0⟩)) ⟨1⟩ 1),
        .switch ⟨0⟩, .think ⟨[⟨0⟩]⟩] = some w ∧
      w.next twoSlots (.depart ⟨0⟩) = some w₁ ∧ w₁.run twoSlots [.wake ⟨1⟩] = some w₂ ∧
      w₂.Shipped ⟨1⟩ (twoSlots.stampExecutor ⟨1⟩ (.start ⟨1⟩)) ∧ w₂.Called ⟨1⟩ ∧
      w₂.next twoSlots (.look ⟨1⟩) = some w₃ ∧
      w₃.answer (.look ⟨1⟩) = some ⟨⟨1⟩, .uncaptured, Context.setReg
        (Context.setReg (Cursor.start ⟨1⟩) twoSlots.roleReg 0) twoSlots.choiceReg 0xFFFFFFFFFFFFFFFF⟩ ∧
      v₁.HappensIn twoSlots (Ships ⟨1⟩) [
        .compute ⟨0⟩ (Context.setReg (twoSlots.stampExecutor ⟨0⟩ (.start ⟨0⟩)) ⟨1⟩ 1),
        .switch ⟨0⟩, .think ⟨[⟨0⟩]⟩, .depart ⟨0⟩, .wake ⟨1⟩] := by
  obtain ⟨setup, h⟩ := create_twoSlots
  obtain ⟨v, v₁, w, w₁, w₂, w₃, hv, hv₁, hw, hw₁, hw₂, hw₃, ha, hrun, hrun', c, last, hp, hr, hchoice⟩ :
      ∃ v v₁ w w₁ w₂ w₃ : Crew Cursor Rotation,
        (new (.fresh 2 {})).run twoSlots
          [.start ⟨0⟩ (.start ⟨0⟩), .arrive ⟨0⟩, .start ⟨1⟩ (.start ⟨1⟩)] = some v ∧
        v.next twoSlots (.arrive ⟨1⟩) = some v₁ ∧
        v₁.run twoSlots [.compute ⟨0⟩ (Context.setReg (twoSlots.stampExecutor ⟨0⟩ (.start ⟨0⟩)) ⟨1⟩ 1),
          .switch ⟨0⟩, .think ⟨[⟨0⟩]⟩] = some w ∧
        w.next twoSlots (.depart ⟨0⟩) = some w₁ ∧ w₁.run twoSlots [.wake ⟨1⟩] = some w₂ ∧
        w₂.next twoSlots (.look ⟨1⟩) = some w₃ ∧
        w₃.answer (.look ⟨1⟩) = some ⟨⟨1⟩, .uncaptured, Context.setReg
          (Context.setReg (Cursor.start ⟨1⟩) twoSlots.roleReg 0) twoSlots.choiceReg 0xFFFFFFFFFFFFFFFF⟩ ∧
        (new (.fresh 2 {})).run twoSlots [.start ⟨0⟩ (.start ⟨0⟩), .arrive ⟨0⟩, .start ⟨1⟩ (.start ⟨1⟩),
          .arrive ⟨1⟩, .compute ⟨0⟩ (Context.setReg (twoSlots.stampExecutor ⟨0⟩ (.start ⟨0⟩)) ⟨1⟩ 1),
          .switch ⟨0⟩, .think ⟨[⟨0⟩]⟩] = some w ∧
        v₁.run twoSlots [.compute ⟨0⟩ (Context.setReg (twoSlots.stampExecutor ⟨0⟩ (.start ⟨0⟩)) ⟨1⟩ 1),
          .switch ⟨0⟩, .think ⟨[⟨0⟩]⟩, .depart ⟨0⟩, .wake ⟨1⟩] = some w₂ ∧
        ∃ c last, w.place ⟨0⟩ = .outside c last ∧ w.ledger.runner = ⟨1⟩ ∧
          (twoSlots.scheduler.choose ⟨1⟩ c w.ledger.schedulerState).2.1 =
            twoSlots.stampExecutor ⟨1⟩ (.start ⟨1⟩) :=
    ⟨_, _, _, _, _, _, rfl, rfl, rfl, rfl, rfl, rfl, rfl, rfl, rfl, _, _, rfl, rfl, rfl⟩
  obtain ⟨hshipped, hcalled, -⟩ :=
    (shipment_delivered h hrun).1 ⟨0⟩ ⟨1⟩ c _ last w₁ hp hr (by decide) hchoice hw₁ _ w₂ (by simp) hw₂
  have hhappens := ((shipment_delivered h hv).2 ⟨1⟩ v₁ hv₁).2 _ w₂ w₃ _ (by simp) hrun' hw₃ ha rfl
  exact ⟨v, v₁, w, w₁, w₂, w₃, hv, hv₁, hw, hw₁, hw₂, hshipped, hcalled, hw₃, ha, hhappens⟩

end Crew

end SoleRunner
