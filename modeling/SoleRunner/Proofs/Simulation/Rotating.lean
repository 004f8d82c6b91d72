import SoleRunner.Proofs.Queue
import SoleRunner.Proofs.Simulation.ExactlyOnce
import SoleRunner.Simulation.Policies

/-!
# Proofs/Simulation/Rotating — a simulation whose threads take turns

The rotation is the scheduler, and the policy asks the same queue, or never switches.  In such a
simulation the queue is in order in every world (`Rotating`): it leaves out the runner, or the thread
that the executor has decided to switch to.  So whenever the rotation is asked there is somebody in the
queue, a decision names an idle thread, and every beat succeeds (`Rotating.beat_ok`).
-/

namespace SoleRunner.Simulation

variable {π : Type} {w v : World Rotation π} {machine : Machine Rotation π} {u next : ThreadId}
  {c : Cursor} {x x' : Worker} {i : Nat} {last : ThreadId → Option (Resume Cursor)}

/-- **The policy takes turns or stays**: each answer is one turn of the rotation, or the runner. -/
def Policy.TakesTurns (policy : Policy Rotation π) : Prop :=
  ∀ runner r p, ∃ p', policy runner r p = (some (r.rotate runner).1, (r.rotate runner).2, p') ∨
    policy runner r p = (some runner, r, p')

theorem Policy.takesTurns_rotate : (Policy.rotate : Policy Rotation π).TakesTurns :=
  fun _ _ p => ⟨p, .inl rfl⟩

theorem Policy.takesTurns_stay : (Policy.stay : Policy Rotation π).TakesTurns :=
  fun _ _ p => ⟨p, .inr rfl⟩

/-! ## Who is to run next -/

namespace Machine

/-- **The machine's threads take turns.** -/
structure Rotates (machine : Machine Rotation π) : Prop where
  wired : machine.Wired
  scheduler_eq : ∃ asked, machine.arbiter.scheduler = Rotation.placing asked
  policy : machine.policy.TakesTurns

theorem Rotates.leavesContexts (h : machine.Rotates) : machine.arbiter.scheduler.LeavesContexts := by
  obtain ⟨asked, hp⟩ := h.scheduler_eq
  rw [hp]
  exact fun _ _ _ => rfl

/-- Whom a thread has decided to switch to, until it has done so. -/
def pending? (machine : Machine Rotation π) (x : Worker) : Option ThreadId :=
  match x.stage with
  | .decided next => some next
  | .due .switch => some (machine.arbiter.decision x.cursor)
  | _ => none

/-- **`next` is to run next**: the executor has decided so, or it is the runner already.  Once a switch is
due, it is a switch to somebody else. -/
structure UpNext (machine : Machine Rotation π) (w : World Rotation π) (next : ThreadId) : Prop where
  next_eq : next = ((w.worker? w.ledger.executor).bind machine.pending?).getD w.ledger.runner
  changes : ∀ x, w.worker? w.ledger.executor = some x → x.stage = .due .switch → next ≠ w.ledger.runner

/-- **The queue is in order**, for the thread that is to run next. -/
def InTurn (machine : Machine Rotation π) (w : World Rotation π) : Prop :=
  ∃ next, machine.UpNext w next ∧ w.ledger.Queued next

end Machine

open Machine

theorem Machine.pending?_ofArrival (c : Cursor) (a : Arrival Cursor) :
    machine.pending? (.ofArrival c a) = none := by cases a <;> rfl

namespace Staged

variable (hst : Staged machine last w)

include hst

/-- The thread that carries the mark is the executor. -/
theorem executor_of_role (hwired : machine.Wired) (hx : w.workers[i]? = some x)
    (hplace : x.place (last (.ofIndex i)) = .outside x.cursor (last (.ofIndex i)))
    (hrole : machine.role x.cursor ≠ 0) :
    w.ledger.executor = .ofIndex i ∧ w.ledger.runner ≠ .nobody ∧ w.ledger.owesUncapture = false := by
  obtain ⟨he, hr, howes, -⟩ := hst.marked.executor_of_mark hst.stationed
    ((hst.place_eq hx).trans hplace) (hwired.role x.cursor ▸ hrole)
  exact ⟨he, hr, howes⟩

/-- Only the executor decides. -/
theorem executor_of_pending (hwired : machine.Wired) (hx : w.workers[i]? = some x)
    (hpending : machine.pending? x = some next) :
    w.ledger.executor = .ofIndex i ∧ w.ledger.runner ≠ .nobody ∧ w.ledger.owesUncapture = false := by
  have hfits := hst.fits i x hx
  obtain ⟨c, stage⟩ := x
  cases stage with
  | decided => exact hst.executor_of_role hwired hx rfl hfits.1
  | due p =>
    cases p with
    | switch => exact hst.executor_of_role hwired hx rfl hfits
    | _ => nomatch hpending
  | _ => nomatch hpending

/-- A hook calls for a switch to every thread but the runner. -/
theorem hookCalls_iff : w.ledger.hookCalls next ↔ next ≠ w.ledger.runner := by
  have harmed : w.ledger.armed = false := hst.undisturbed.unarmed
  have hpasses : w.ledger.hookCalls next = false ↔ next = w.ledger.runner ∧ w.ledger.armed = false :=
    hst.stationed.sound.hookCalls_eq_false_iff
  rw [← Bool.not_eq_false, hpasses, and_iff_left harmed]

/-- The executor is one of the threads. -/
theorem exists_executor (he : w.ledger.executor ≠ .nobody) :
    ∃ i x, w.workers[i]? = some x ∧ w.worker? w.ledger.executor = some x ∧
      w.ledger.executor = .ofIndex i := by
  obtain ⟨c, l, hp⟩ := hst.stationed.executor_outside he
  obtain ⟨x, hx, -⟩ := World.holds_of_outside hp
  exact ⟨_, x, hx, hx, (ThreadId.ofIndex_index _).symm⟩

end Staged

namespace Machine.UpNext

/-- While nobody is the executor, the runner is to run next. -/
theorem of_vacant (hcap : w.workers.size ≤ ThreadId.nobody.index) (he : w.ledger.executor = .nobody) :
    machine.UpNext w next ↔ next = w.ledger.runner := by
  have hnone : w.worker? w.ledger.executor = none := he ▸ Array.getElem?_eq_none hcap
  refine ⟨fun h => h.next_eq.trans (by rw [hnone]; rfl), ?_⟩
  rintro rfl
  exact ⟨by rw [hnone]; rfl, fun x hx => nomatch hnone.symm.trans hx⟩

/-- An executor that has nothing pending runs on. -/
theorem of_plain (hx : w.worker? w.ledger.executor = some x) (hplain : machine.pending? x = none) :
    machine.UpNext w next ↔ next = w.ledger.runner := by
  refine ⟨fun h => h.next_eq.trans (by rw [hx, Option.bind_some, hplain]; rfl), ?_⟩
  rintro rfl
  refine ⟨by rw [hx, Option.bind_some, hplain]; rfl, fun y hy hstage => ?_⟩
  cases hx.symm.trans hy
  rw [pending?, hstage] at hplain
  nomatch hplain

theorem of_pending (hx : w.worker? w.ledger.executor = some x) (hpending : machine.pending? x = some u)
    (h : machine.UpNext w next) : next = u :=
  h.next_eq.trans (by rw [hx, Option.bind_some, hpending]; rfl)

/-- An executor that owes its uncapture has nothing pending. -/
theorem of_owes (hst : Staged machine last w) (hwired : machine.Wired)
    (howes : w.ledger.owesUncapture = true) : machine.UpNext w next ↔ next = w.ledger.runner := by
  have hn := (hst.undisturbed.settled howes).executor_ne_nobody hst.stationed.sound
  obtain ⟨i, x, hx, hworker, -⟩ := hst.exists_executor hn
  refine of_plain hworker ?_
  cases hpending : machine.pending? x with
  | none => rfl
  | some u => exact nomatch (hst.executor_of_pending hwired hx hpending).2.2.symm.trans howes

end Machine.UpNext

namespace Machine.InTurn

/-! ## When the runner is to run next -/

/-- An executor without a decision goes on with the runner. -/
theorem queued_of_plain (h : machine.InTurn w) (hst : Staged machine last w)
    (hx : w.workers[i]? = some x) (he : w.ledger.executor = .ofIndex i)
    (hplain : machine.pending? x = none) : w.ledger.Queued w.ledger.runner := by
  obtain ⟨next, hnext, hq⟩ := h
  have hworker : w.worker? w.ledger.executor = some x := he ▸ hst.worker?_eq hx
  exact (UpNext.of_plain hworker hplain).mp hnext ▸ hq

/-- Whom the executor has decided to switch to is to run next. -/
theorem queued_of_pending (h : machine.InTurn w) (hst : Staged machine last w) (hwired : machine.Wired)
    (hx : w.workers[i]? = some x) (hpending : machine.pending? x = some u) :
    w.ledger.executor = .ofIndex i ∧ w.ledger.runner ≠ .nobody ∧ machine.UpNext w u ∧ w.ledger.Queued u := by
  obtain ⟨next, hnext, hq⟩ := h
  obtain ⟨he, hr, -⟩ := hst.executor_of_pending hwired hx hpending
  cases hnext.of_pending (he ▸ hst.worker?_eq hx) hpending
  exact ⟨he, hr, hnext, hq⟩

theorem queued_of_vacant (h : machine.InTurn w) (hst : Staged machine last w)
    (he : w.ledger.executor = .nobody) : w.ledger.Queued w.ledger.runner := by
  obtain ⟨next, hnext, hq⟩ := h
  exact (UpNext.of_vacant hst.size_le_nobody he).mp hnext ▸ hq

theorem queued_of_owes (h : machine.InTurn w) (hst : Staged machine last w) (hwired : machine.Wired)
    (howes : w.ledger.owesUncapture = true) : w.ledger.Queued w.ledger.runner := by
  obtain ⟨next, hnext, hq⟩ := h
  exact (UpNext.of_owes hst hwired howes).mp hnext ▸ hq

/-- A newcomer that finds an uncapture owed is idle itself, if nobody else is. -/
theorem chooses_of_owes (h : machine.InTurn w) (hrot : machine.Rotates) (hst : Staged machine last w)
    (hu : w.ledger.table.Outside u) (howes : w.ledger.owesUncapture = true) (c : Cursor) :
    (w.ledger.entered machine.arbiter.scheduler u c).Chooses machine.arbiter.scheduler := by
  have hb := hst.stationed.sound.balanced
  have hun := hst.undisturbed.unblocked
  obtain ⟨asked, hp⟩ := hrot.scheduler_eq
  rw [hp]
  have hone : w.ledger.captured = 1 := (hst.undisturbed.settled howes).captured_eq
  have h0 : w.ledger.captured ≠ 0 := Nat.ne_of_gt (hone ▸ Nat.one_pos)
  have hgrows : w.ledger.Grows (w.ledger.entered (Rotation.placing asked) u c) :=
    (Ledger.Grows.refl _).entered
  have hq := (h.queued_of_owes hst hrot.wired howes).entered asked (c := c) hb hun hu
  exact hq.chooses (Ledger.entered_balanced hb _ c hu)
    (fun u hu => hun u (hgrows.table.blocked u hu)) ⟨u, Ledger.state?_entered_of_later h0 hu⟩

/-! ## What keeps the queue in order -/

/-- A thread that is not the executor does something that changes nobody's turn. -/
theorem kept (h : machine.InTurn w) (hv : v.workers = w.workers) (hi : w.ledger.executor ≠ .ofIndex i)
    (hm : w.ledger.KeepsTurn v.ledger) (x' : Worker) : machine.InTurn (v.withWorker i x') := by
  obtain ⟨next, hnext, hqueue⟩ := h
  have hworker : (v.withWorker i x').worker? v.ledger.executor = w.worker? w.ledger.executor :=
    hm.executor_eq ▸ World.worker?_withWorker_of_ne hv hi x'
  refine ⟨next, ⟨?_, fun y hy => ?_⟩, hm.queued next hqueue⟩
  · rw [World.ledger_withWorker, hworker, hm.runner_eq]
    exact hnext.next_eq
  · rw [World.ledger_withWorker, hm.runner_eq]
    exact hnext.changes y (hworker.symm.trans hy)

/-- A thread ends up as the executor, without a decision. -/
theorem of_resumed (hst : Staged machine last w) (hv : v.workers = w.workers)
    (hx : w.workers[i]? = some x) (he : v.ledger.executor = .ofIndex i)
    (hq : v.ledger.Queued v.ledger.runner) (hplain : machine.pending? x' = none) :
    machine.InTurn (v.withWorker i x') := by
  have hworker : (v.withWorker i x').worker? v.ledger.executor = some x' :=
    he ▸ World.worker?_withWorker_self hv (World.lt_size hx) hst.size_le_nobody x'
  exact ⟨_, (UpNext.of_plain hworker hplain).mpr rfl, hq⟩

/-- **A thread without a decision does something, and has none afterwards.** -/
theorem requeued (h : machine.InTurn w) (hst : Staged machine last w) (hv : v.workers = w.workers)
    (hx : w.workers[i]? = some x) (hplain : machine.pending? x = none)
    (hplain' : machine.pending? x' = none) (hm : w.ledger.Requeues (.ofIndex i) v.ledger) :
    machine.InTurn (v.withWorker i x') := by
  obtain hkeeps | ⟨he | he, hq⟩ := hm
  · by_cases hi : w.ledger.executor = .ofIndex i
    · have hq := hkeeps.queued _ (h.queued_of_plain hst hx hi hplain)
      exact of_resumed hst hv hx (hkeeps.executor_eq.trans hi) (hkeeps.runner_eq ▸ hq) hplain'
    · exact h.kept hv hi hkeeps x'
  · exact of_resumed hst hv hx he hq hplain'
  · have hsize : (v.withWorker i x').workers.size ≤ ThreadId.nobody.index := by
      rw [World.withWorker, Array.size_setIfInBounds, hv]
      exact hst.size_le_nobody
    exact ⟨_, (UpNext.of_vacant hsize he).mpr rfl, hq⟩

end Machine.InTurn

/-! ## Every beat keeps the queue in order -/

/-- **A world whose threads take turns**: it is in order, every computation is accounted for, nobody has
crashed, and the queue is in order. -/
structure Rotating (machine : Machine Rotation π) (last : ThreadId → Option (Resume Cursor))
    (w : World Rotation π) : Prop where
  staged : Staged machine last w
  accounted : Accounted machine w
  survive : ∀ (i : Nat) (x : Worker), w.workers[i]? = some x → x.stage ≠ .crashed
  inTurn : machine.InTurn w

namespace Machine

/-- What an executor decides by itself keeps the queue in order. -/
theorem Runs.inTurn (hrot : machine.Rotates) (h : Rotating machine last w)
    (hx : w.workers[i]? = some x) (hr : Runs machine (.ofIndex i) w x x' v) :
    machine.InTurn (v.withWorker i x') := by
  have hst := h.staged
  have hb := hst.stationed.sound.balanced
  have hworker : w.worker? (.ofIndex i) = some x := hst.worker?_eq hx
  have hworker' : (v.withWorker i x').worker? (.ofIndex i) = some x' :=
    World.worker?_withWorker_self hr.workers_eq (World.lt_size hx) hst.size_le_nobody x'
  cases hr with
  | crashes hrole hpolicy =>
    obtain ⟨p, hp | hp⟩ := hrot.policy _ w.ledger.schedulerState w.policyState <;>
      nomatch hp.symm.trans hpolicy
  | @decides c next s p hrole hpolicy =>
    obtain ⟨he, hn, -⟩ := hst.executor_of_role hrot.wired hx rfl hrole
    have hq := h.inTurn.queued_of_plain hst hx he rfl
    have howner : c.owner = w.ledger.runner := by
      have hheld := (h.accounted.custody last).held _ c _ (hst.place_eq hx)
      exact hheld.1.trans (Ledger.carried_executor he.symm)
    rw [howner] at hpolicy
    refine ⟨next, ⟨?_, ?_⟩, ?_⟩
    · change next = ((World.worker? _ w.ledger.executor).bind machine.pending?).getD _
      rw [he, hworker']
      rfl
    · change ∀ x, World.worker? _ w.ledger.executor = some x → _
      rw [he, hworker']
      rintro y ⟨⟩ hstage
      nomatch hstage
    · change Ledger.Queued { w.ledger with schedulerState := s } next
      obtain ⟨p', hp | hp⟩ := hrot.policy w.ledger.runner w.ledger.schedulerState w.policyState
      · cases hp.symm.trans hpolicy
        exact hq.rotated hb hn
      · cases hp.symm.trans hpolicy
        exact hq
  | @turns c next hhook =>
    obtain ⟨he, -, -, hq⟩ := h.inTurn.queued_of_pending hst hrot.wired hx rfl
    refine ⟨next, ⟨?_, fun _ _ _ => hst.hookCalls_iff.mp hhook⟩, hq⟩
    rw [World.ledger_withWorker, he, hworker']
    exact (hst.fits i _ hx).2.symm
  | @stays c next hhook =>
    obtain ⟨he, -, -, hq⟩ := h.inTurn.queued_of_pending hst hrot.wired hx rfl
    have hrunner : next = w.ledger.runner := Classical.byContradiction fun hne =>
      nomatch (hst.hookCalls_iff.mpr hne).symm.trans hhook
    exact .of_resumed hst rfl hx he (hrunner ▸ hq) rfl
  | _ => exact h.inTurn.requeued hst rfl hx rfl rfl (.inl (.of_eq rfl rfl rfl fun _ => .rfl))

/-- **A beat that succeeds keeps the queue in order.** -/
theorem Acts.inTurn (hrot : machine.Rotates) (h : Rotating machine last w)
    (hx : w.workers[i]? = some x) (ha : Acts machine (.ofIndex i) w x x' v) :
    machine.InTurn (v.withWorker i x') := by
  have hst := h.staged
  have hb := hst.stationed.sound.balanced
  have hun := hst.undisturbed.unblocked
  have hfits := hst.fits i x hx
  obtain ⟨asked, hp⟩ := hrot.scheduler_eq
  cases ha with
  | start ho =>
    have hm := Arbiter.Starts.requeues hp (ho ▸ Arbiter.startThread_outcome ..)
    exact h.inTurn.requeued hst rfl hx rfl rfl hm
  | @arrive c a m ho =>
    have hm : w.ledger.Requeues (.ofIndex i) m := by
      refine Arbiter.Arrives.requeues hp hb hst.stationed.sound.executor_inside hun ?_
        (ho ▸ Arbiter.arrive_outcome hb)
      rintro (howes | he | he)
      · exact h.inTurn.queued_of_owes hst hrot.wired howes
      · exact h.inTurn.queued_of_vacant hst he
      · exact h.inTurn.queued_of_plain hst hx he rfl
    exact h.inTurn.requeued hst rfl hx rfl (pending?_ofArrival c a) hm
  | depart ho =>
    obtain ⟨he, -⟩ := hst.executor_of_role hrot.wired hx rfl hfits
    have hm := Arbiter.Departs.requeues hp hb (h.inTurn.queued_of_plain hst hx he rfl)
      (ho ▸ Arbiter.depart_outcome hb)
    exact h.inTurn.requeued hst rfl hx rfl rfl hm
  | @switch c r m ho =>
    obtain ⟨-, -, -, hq⟩ := h.inTurn.queued_of_pending hst hrot.wired hx rfl
    obtain ⟨he', hq'⟩ := Arbiter.Switches.requeues hb hq (ho ▸ Arbiter.switch_outcome hb)
    exact .of_resumed hst rfl hx he' hq' rfl
  | finish ho =>
    have hm := Arbiter.Finishes.requeues hp hb hun
      (fun he => h.inTurn.queued_of_plain hst hx he rfl) (ho ▸ Arbiter.endThread_outcome ..)
    exact h.inTurn.requeued hst rfl hx rfl rfl (hm.logged _)
  | wake => exact h.inTurn.requeued hst rfl hx rfl rfl (.inl (.of_eq rfl rfl rfl fun _ => .rfl))
  | @look c a m ho =>
    have hm : w.ledger.Requeues (.ofIndex i) m := Arbiter.Looks.requeues
      (fun he => h.inTurn.queued_of_vacant hst he) (ho ▸ Arbiter.lookAgain_outcome hb)
    exact h.inTurn.requeued hst rfl hx rfl (pending?_ofArrival c a) hm
  | runs hr => exact hr.inTurn hrot h hx
  | rests =>
    rw [World.withWorker_self hx]
    exact h.inTurn

/-- Where the threads take turns, no policy breaks down. -/
theorem Acts.survives (hrot : machine.Rotates) (ha : Acts machine (.ofIndex i) w x x' v)
    (hx : x.stage ≠ .crashed) : x'.stage ≠ .crashed := by
  cases ha with
  | @arrive c a => cases a <;> exact nofun
  | @look c a => cases a <;> exact nofun
  | runs hr =>
    cases hr with
    | crashes hrole hpolicy =>
      obtain ⟨p, hp | hp⟩ := hrot.policy _ w.ledger.schedulerState w.policyState <;>
        nomatch hp.symm.trans hpolicy
    | _ => exact nofun
  | rests => exact hx
  | _ => exact nofun

end Machine

namespace Rotating

/-- **A beat that succeeds leaves a world whose threads take turns.** -/
theorem act (hrot : machine.Rotates) (h : Rotating machine last w) (hx : w.workers[i]? = some x)
    (ha : Acts machine (.ofIndex i) w x x' v) :
    ∃ l, Rotating machine (Function.update last (.ofIndex i) l) (v.withWorker i x') := by
  obtain ⟨l, hl⟩ := h.staged.act hrot.wired hx ha
  refine ⟨l, hl, h.accounted.act hrot.wired hrot.leavesContexts h.staged hx ha, fun j y hy => ?_,
    ha.inTurn hrot h hx⟩
  obtain ⟨rfl, rfl⟩ | ⟨-, hy⟩ := World.of_workers_withWorker ha.workers_eq hy
  · exact ha.survives hrot (h.survive _ x hx)
  · exact h.survive j y hy

/-! ## No call fails -/

/-- **Every call of a thread that waits for its turn succeeds.** -/
theorem call_ok (hrot : machine.Rotates) (h : Rotating machine last w) {p : Point}
    (hx : w.workers[i]? = some ⟨c, .due p⟩) : ∃ x' v, machine.call (.ofIndex i) c p w = .ok x' v := by
  have hst := h.staged
  have hb := hst.stationed.sound.balanced
  have hun := hst.undisturbed.unblocked
  have hfits := hst.fits i _ hx
  have hplace := hst.place_eq hx
  have hlt := hst.index_lt hx
  obtain ⟨asked, hp⟩ := hrot.scheduler_eq
  cases p with
  | start =>
    have hok : ∃ c' m, machine.arbiter.startThread (.ofIndex i) c w.ledger = .ok c' m :=
      Crew.start_ok hst.stationed hlt hplace c
    obtain ⟨c', m, hm⟩ := hok
    rw [call_start]
    exact ⟨_, _, congrArg (w.answered _) hm⟩
  | arrival =>
    obtain ⟨a, m, hm⟩ := Crew.arrive_ok hst.stationed hst.marked hst.undisturbed hlt hplace
      (hrot.wired.role c ▸ hfits) fun hu howes => h.inTurn.chooses_of_owes hrot hst hu howes c
    rw [call_arrival]
    exact ⟨_, _, congrArg ((w.record _ c .arrived).answered _) hm⟩
  | departure =>
    obtain ⟨he, -⟩ := hst.executor_of_role hrot.wired hx rfl hfits
    have hq := h.inTurn.queued_of_plain hst hx he rfl
    obtain ⟨r, m, hm⟩ := Crew.depart_ok hst.stationed hst.marked hst.undisturbed hplace
      (hrot.wired.role c ▸ hfits) fun hn => hp ▸ hq.chooses hb hun (hb.exists_idle hn)
    rw [call_departure]
    exact ⟨_, _, congrArg (w.answered _) hm⟩
  | switch =>
    obtain ⟨he, hr, hnext, hq⟩ := h.inTurn.queued_of_pending hst hrot.wired hx rfl
    have hne := hnext.changes _ (he ▸ hst.worker?_eq hx) rfl
    obtain ⟨r, m, hm⟩ := Crew.switch_ok hst.stationed hst.marked hplace
      (hrot.wired.role c ▸ hfits) hne (hb.idle_of_inside (hq.next_inside _ (hb.runner_inside hr)) hne (hun _))
    rw [call_switch]
    exact ⟨_, _, congrArg (w.answered _) hm⟩
  | finish =>
    have hok : ∃ m, machine.arbiter.endThread (.ofIndex i) w.ledger = .ok () m :=
      Crew.finish_ok hst.stationed hst.marked hst.undisturbed hlt hplace (hrot.wired.role c ▸ hfits.1)
    obtain ⟨m, hm⟩ := hok
    obtain ⟨entry, hcall⟩ := call_finish machine (.ofIndex i) c w
    rw [hcall, hm]
    exact ⟨_, _, rfl⟩
  | wake => exact absurd rfl hfits.not_due_wake

/-- **Every beat succeeds.** -/
theorem beat_ok (hrot : machine.Rotates) (h : Rotating machine last w) (i : Nat) :
    ∃ w' last', machine.beat i w = .ok () w' ∧ Rotating machine last' w' := by
  have hst := h.staged
  cases hx : w.workers[i]? with
  | none => exact ⟨w, last, beat_of_none hx, h⟩
  | some x =>
    have hok : ∃ x' v, machine.act (.ofIndex i) x w = .ok x' v := by
      obtain ⟨c, stage⟩ := x
      cases stage with
      | due p => exact h.call_ok hrot hx
      | awake =>
        have hlook : ∃ a m, machine.arbiter.lookAgain (.ofIndex i) w.ledger = .ok a m :=
          Crew.look_ok hst.stationed hst.undisturbed (hst.index_lt hx) (hst.place_eq hx)
        obtain ⟨a, m, hm⟩ := hlook
        exact ⟨_, _, (answer_apply ..).trans (congrArg (w.answered _) hm)⟩
      | _ => exact ⟨_, _, rfl⟩
    obtain ⟨x', v, hact⟩ := hok
    obtain ⟨l, hl⟩ := h.act hrot hx (acts_of_act (hst.fits i x hx).not_due_wake hact)
    exact ⟨_, _, by rw [beat_of_some hx, hact], hl⟩

/-- **Every row of beats succeeds.** -/
theorem beats_ok (hrot : machine.Rotates) (h : Rotating machine last w) (is : List Nat) :
    ∃ w' last', machine.beats is w = .ok () w' ∧ Rotating machine last' w' := by
  induction is generalizing w last with
  | nil => exact ⟨w, last, rfl, h⟩
  | cons i is ih =>
    obtain ⟨v, l, hv, hl⟩ := h.beat_ok hrot i
    obtain ⟨w', l', hw', hl'⟩ := ih hl
    exact ⟨w', l', by rw [beats_cons, hv]; exact hw', hl'⟩

end Rotating

end SoleRunner.Simulation
