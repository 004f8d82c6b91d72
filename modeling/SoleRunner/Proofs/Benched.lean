import SoleRunner.Proofs.Queue
import SoleRunner.Proofs.Stationed

/-!
# Proofs/Benched — a thread that is blocked keeps its place in the ready queue

Nobody tells the rotation when a thread is blocked or unblocked.  If every switch is one turn of the
rotation, followed at once by the switch to its answer (`Round`), the queue lists the idle threads and the
blocked ones, each once (`backlog_of_rounds`).  So it lists exactly the idle ones as long as nobody is
blocked, and both a turn and the replacement of the runner go wrong exactly where the front of the queue is
blocked, whoever else is idle.
-/

namespace SoleRunner

/-! ## The queue of a ledger -/

namespace Ledger

variable {C : Type} {m m' : Ledger C Rotation} {tid next u : ThreadId} {c : C}
  {asked : CodeUnit → List Placement}

/-- The front of the queue is blocked. -/
def FrontBlocked (m : Ledger C Rotation) : Prop :=
  ∃ first rest, m.schedulerState.ready = first :: rest ∧ m.table.state? first = some .blocked

/-- **What the queue is worth**, whoever is blocked. -/
structure Backlog (m : Ledger C Rotation) (p : Scheduler C Rotation) : Prop where
  nodup : m.schedulerState.ready.Nodup
  mem_iff : ∀ u, u ∈ m.schedulerState.ready ↔
    m.table.state? u = some .idle ∨ m.table.state? u = some .blocked
  /-- It lists the idle threads if and only if nobody is blocked. -/
  idle_iff : (∀ u, u ∈ m.schedulerState.ready ↔ m.table.state? u = some .idle) ↔
    ∀ u, m.table.state? u ≠ some .blocked
  /-- One turn of the rotation keeps the runner or answers with an idle thread, or the front is blocked. -/
  turn_iff : ((m.schedulerState.rotate m.runner).1 = m.runner ∨
      m.table.state? (m.schedulerState.rotate m.runner).1 = some .idle) ↔ ¬ m.FrontBlocked
  /-- If anybody is idle, an idle thread replaces the runner, or the front is blocked. -/
  chooses_iff : (∃ u, m.table.state? u = some .idle) → (m.Chooses p ↔ ¬ m.FrontBlocked)

/-- Whoever is in the program and does not run is idle or blocked. -/
theorem Lists.mem_iff_waiting (h : m.Lists m.runner) (hb : m.table.Balanced m.captured m.runner)
    (u : ThreadId) : u ∈ m.schedulerState.ready ↔
      m.table.state? u = some .idle ∨ m.table.state? u = some .blocked := by
  rw [h.mem_iff]
  constructor
  · rintro ⟨⟨s, hs, hne⟩, hu⟩
    cases s with
    | uncaptured => exact absurd rfl hne
    | running => exact absurd (hb.runner_eq_of_running hs) hu
    | idle => exact .inl hs
    | blocked => exact .inr hs
  · rintro (hs | hs)
    · exact ⟨Table.inside_of_state hs (by decide), hb.ne_runner_of_idle hs⟩
    · exact ⟨Table.inside_of_state hs (by decide), hb.ne_runner_of_state hs (by decide)⟩

/-- The front of the queue is idle unless it is blocked. -/
theorem Lists.front_idle_iff (h : m.Lists m.runner) (hb : m.table.Balanced m.captured m.runner)
    {first : ThreadId} {rest : List ThreadId} (hcons : m.schedulerState.ready = first :: rest) :
    m.table.state? first = some .idle ↔ ¬ m.FrontBlocked := by
  constructor
  · rintro hidle ⟨first', rest', hcons', hblocked⟩
    cases hcons.symm.trans hcons'
    nomatch hidle.symm.trans hblocked
  · intro hno
    have hwaiting := (h.mem_iff_waiting hb first).mp (hcons ▸ List.mem_cons_self)
    exact hwaiting.resolve_right fun hblocked => hno ⟨first, rest, hcons, hblocked⟩

/-- A turn is answered with the runner if the queue is empty, and else with its front. -/
theorem Lists.turn_iff (h : m.Lists m.runner) (hb : m.table.Balanced m.captured m.runner) :
    ((m.schedulerState.rotate m.runner).1 = m.runner ∨
      m.table.state? (m.schedulerState.rotate m.runner).1 = some .idle) ↔ ¬ m.FrontBlocked := by
  cases hready : m.schedulerState.ready with
  | nil =>
    have hstay : (m.schedulerState.rotate m.runner).1 = m.runner := by rw [Rotation.rotate, hready]
    refine iff_of_true (.inl hstay) ?_
    rintro ⟨first, rest, hcons, -⟩
    nomatch hready.symm.trans hcons
  | cons first rest =>
    have hne : first ≠ m.runner := ((h.mem_iff first).mp (hready ▸ List.mem_cons_self)).2
    rw [Rotation.rotate, hready]
    exact (or_iff_right hne).trans (h.front_idle_iff hb hready)

/-- If anybody is idle, the queue is not empty, and its front is the answer. -/
theorem Lists.chooses_iff (h : m.Lists m.runner) (hb : m.table.Balanced m.captured m.runner)
    (hu : m.table.state? u = some .idle) :
    m.Chooses (Rotation.placing asked) ↔ ¬ m.FrontBlocked := by
  have hin := (h.mem_iff_waiting hb u).mpr (.inl hu)
  cases hready : m.schedulerState.ready with
  | nil =>
    rw [hready] at hin
    nomatch hin
  | cons first rest =>
    have hpop : m.schedulerState.pop.1 = first := by rw [Rotation.pop, hready]
    obtain ⟨c, -⟩ := hb.saved u .idle hu (by decide)
    rw [← h.front_idle_iff hb hready, ← hpop]
    exact ⟨fun hchooses => hchooses c, fun hidle _ => hidle⟩

/-- **All that the queue is worth follows from whom it lists.** -/
theorem Lists.backlog (h : m.Lists m.runner) (hb : m.table.Balanced m.captured m.runner) :
    m.Backlog (Rotation.placing asked) where
  nodup := h.nodup
  mem_iff := h.mem_iff_waiting hb
  idle_iff := by
    constructor
    · intro hidle u hu
      have hin := (h.mem_iff_waiting hb u).mpr (.inr hu)
      nomatch hu.symm.trans ((hidle u).mp hin)
    · intro hun u
      exact (h.mem_iff_waiting hb u).trans (or_iff_left (hun u))
  turn_iff := h.turn_iff hb
  chooses_iff := fun ⟨_, hu⟩ => h.chooses_iff hb hu

end Ledger

/-! ## The sections of the handlers -/

namespace Arbiter

open Critical Ledger

variable {C : Type} {arb : Arbiter C Rotation} {m m' k : Ledger C Rotation} {tid next : ThreadId} {c : C}
  {asked : CodeUnit → List Placement} (hp : arb.scheduler = Rotation.placing asked)

include hp in
theorem lists_planUnit (h : m.Lists next) (u : CodeUnit) : (left (arb.planUnit u m)).Lists next := by
  obtain ⟨e, hplan⟩ | ⟨plan, log, hplan⟩ := arb.planUnit_apply u m <;> rw [hplan, hp] <;>
    exact h.congr rfl fun _ => .rfl

variable [Context C] {a : Arrival C} {r : Resume C}

include hp

theorem Starts.lists {c' : C} (h : m.Lists m.runner) (ho : Starts arb tid c m (.ok c' m')) :
    m'.Lists m'.runner := by
  cases ho with
  | started =>
    rw [hp]
    exact h.congr rfl fun _ => .rfl

theorem Settles.lists (hb : k.table.Balanced k.captured k.runner) (h : k.Lists k.runner)
    (ho : Settles arb tid k (.ok a m')) : m'.Lists m'.runner := by
  cases ho with
  | @paid d d' x next s log _ _ _ hr _ ha hnext _ =>
    have hreplaced := h.replaced (c := d') hb hr (Rotation.pop_of_choose (hp ▸ ha)) hnext
    exact hreplaced.congr rfl fun _ => inside_withSaved
  | took => exact h.congr rfl fun _ => inside_withSaved
  | waits => exact h

omit hp [Context C] in
/-- Where a newcomer has joined, the queue lists everybody but the runner, who may be the newcomer. -/
theorem lists_entered (h : m.Lists m.runner) (hb : m.table.Balanced m.captured m.runner)
    (hs : m.table.Outside tid) :
    (m.entered (Rotation.placing asked) tid c).Lists (m.entered (Rotation.placing asked) tid c).runner := by
  by_cases h0 : m.captured = 0
  · rw [hb.runner_eq_nobody h0] at h
    rw [show (m.entered (Rotation.placing asked) tid c).runner = tid from if_pos h0]
    exact h.entered_first asked h0 hb.nobody_unknown hs
  · rw [entered_runner_of_later h0]
    exact h.entered_later asked h0 hs (hb.ne_runner_of_outside hs)

theorem Arrives.lists (hb : m.table.Balanced m.captured m.runner) (h : m.Lists m.runner)
    (ho : Arrives arb tid c m (.ok a m')) : m'.Lists m'.runner := by
  cases ho with
  | returned => exact h.congr rfl fun _ => inside_withSaved
  | joined hs hset =>
    rw [hp] at hset
    exact hset.lists hp (entered_balanced hb _ c hs) (lists_entered h hb hs)

theorem Departs.lists (hb : m.table.Balanced m.captured m.runner) (h : m.Lists m.runner)
    (ho : Departs arb tid c m (.ok r m')) : m'.Lists m'.runner := by
  cases ho with
  | @shipped d x next s log _ hr _ _ ha hnext =>
    have hreplaced := h.replaced (c := d) hb hr (Rotation.pop_of_choose (hp ▸ ha)) hnext
    exact hreplaced.congr rfl fun _ => inside_withSaved
  | @handedOver d next s log _ hr htid _ ha hnext =>
    have hreplaced := h.replaced (c := d) hb (hr ▸ htid) (Rotation.pop_of_choose (hp ▸ ha)) hnext
    exact hreplaced.congr rfl fun _ => inside_withSaved
  | owed => exact h.congr rfl fun _ => inside_withSaved

omit [Context C] in
theorem Finishes.lists (hb : m.table.Balanced m.captured m.runner) (h : m.Lists m.runner)
    (ho : Finishes arb tid m (.ok () m')) : m'.Lists m'.runner := by
  cases ho with
  | outside =>
    rw [hp]
    exact h.congr rfl fun _ => .rfl
  | last hs =>
    rw [hp]
    exact (h.vacated hb hs).congr rfl fun _ => .rfl

omit hp

/-- A switch to the thread that the queue leaves out. -/
theorem Switches.lists (hb : m.table.Balanced m.captured m.runner) (h : m.Lists (arb.decision c))
    (ho : Switches arb tid c m (.ok r m')) : m'.Lists m'.runner := by
  cases ho with
  | switched hcheck hr =>
    obtain ⟨-, -, -, hidle⟩ := of_checkSwitch hcheck
    exact (h.switched hb hr hidle).withSaved _ _

theorem Looks.lists (h : m.Lists m.runner) (ho : Looks arb tid m (.ok a m')) : m'.Lists m'.runner := by
  cases ho with
  | released | took => exact h.congr rfl fun _ => inside_withSaved
  | waits => exact h.congr rfl fun _ => .rfl

end Arbiter

/-! ## Rounds -/

/-- A move that neither switches nor changes the scheduler's mind. -/
def Move.isPlain {C σ : Type} : Move C σ → Bool
  | .switch _ | .think _ => false
  | _ => true

/-- **What happens in a crew whose switches are turns of the rotation.** -/
inductive Round (C : Type) where
  | move (mv : Move C Rotation)
  /-- At a switch hook `tid` asks the rotation for a turn, goes on with context `c`, in which the answer
  stands, and calls the arbiter if the hook says so. -/
  | turn (tid : ThreadId) (c : C)

namespace Crew

open Critical Arbiter Ledger

variable {C : Type} [Context C] {arb : Arbiter C Rotation} {w w' : Crew C Rotation} {rd : Round C}
  {rds : List (Round C)} {mv : Move C Rotation} {tid : ThreadId} {c : C} {asked : CodeUnit → List Placement}

/-- The moves of a turn. -/
def turnMoves (w : Crew C Rotation) (tid : ThreadId) (c : C) : List (Move C Rotation) :=
  let (next, r) := w.ledger.schedulerState.rotate w.ledger.runner
  .think r :: .compute tid c :: if w.ledger.hookCalls next then [.switch tid] else []

/-- **One round**; nothing where a move cannot be made, or the context says something else than the
rotation. -/
def round (arb : Arbiter C Rotation) (w : Crew C Rotation) : Round C → Option (Crew C Rotation)
  | .move mv => if mv.isPlain then w.next arb mv else none
  | .turn tid c =>
    if arb.decision c = (w.ledger.schedulerState.rotate w.ledger.runner).1 then
      w.run arb (w.turnMoves tid c)
    else none

/-- The crew after the rounds of a list, one after another. -/
def rounds (arb : Arbiter C Rotation) (w : Crew C Rotation) (rds : List (Round C)) :
    Option (Crew C Rotation) := rds.foldlM (fun w rd => w.round arb rd) w

/-- What every round keeps, every list of rounds keeps. -/
theorem of_rounds {P : Crew C Rotation → Prop}
    (hstep : ∀ v v' rd, P v → v.round arb rd = some v' → P v') (hw : P w)
    (h : w.rounds arb rds = some w') : P w' := by
  induction rds generalizing w with
  | nil => exact Option.some.inj h ▸ hw
  | cons rd rds ih =>
    obtain ⟨v, hround, hrest⟩ := Option.bind_eq_some_iff.mp (List.foldlM_cons.symm.trans h)
    exact ih (hstep w v rd hw hround) hrest

/-- A round is made of moves. -/
theorem run_of_round (h : w.round arb rd = some w') : ∃ mvs, w.run arb mvs = some w' := by
  cases rd with
  | move mv =>
    simp only [round] at h
    split at h
    · exact ⟨[mv], by rw [run_cons, h]; rfl⟩
    · nomatch h
  | turn tid c =>
    simp only [round] at h
    split at h
    · exact ⟨_, h⟩
    · nomatch h

theorem stationed_of_round (hw : w.Stationed) (h : w.round arb rd = some w') : w'.Stationed := by
  obtain ⟨mvs, hrun⟩ := run_of_round h
  exact of_run (fun _ _ _ => Moves.stationed) hw hrun

/-- **Every plain move keeps the queue in order**, granted requests to block and unblock as well. -/
theorem Moves.lists (hp : arb.scheduler = Rotation.placing asked) (hw : w.Stationed)
    (hmv : mv.isPlain = true) (h : w.ledger.Lists w.ledger.runner) (hm : Moves arb w mv w') :
    w'.ledger.Lists w'.ledger.runner := by
  have hb := hw.sound.balanced
  cases hm with
  | start _ ho => exact Starts.lists hp h (ho ▸ arb.startThread_outcome _ _ w.ledger)
  | arrive _ _ ho => exact Arrives.lists hp hb h (ho ▸ arrive_outcome hb)
  | depart _ _ ho => exact Departs.lists hp hb h (ho ▸ depart_outcome hb)
  | switch => nomatch hmv
  | finish _ _ ho => exact Finishes.lists hp hb h (ho ▸ arb.endThread_outcome _ w.ledger)
  | compute => exact h
  | wake => exact h.congr rfl fun _ => .rfl
  | look _ ho => exact Looks.lists h (ho ▸ lookAgain_outcome hb)
  | @plan u =>
    have hkeeps := arb.keeps_planUnit u w.ledger
    exact hkeeps.runner_eq ▸ lists_planUnit hp h u
  | @request call hcall =>
    have hkeeps := arb.keeps_request hcall w.ledger
    exact hkeeps.runner_eq ▸ h.congr (arb.schedulerState_request hcall w.ledger) hkeeps.inside_iff
  | @edit tid f =>
    have hedit := editContext_outcome tid (fun c => ((), f c)) w.ledger
    exact hedit.keeps.runner_eq ▸ h.congr hedit.schedulerState_eq hedit.keeps.inside_iff
  | think => nomatch hmv

/-- **How a turn can end**, if its answer is `next` and leaves the queue `r`. -/
inductive Turns (arb : Arbiter C Rotation) (w : Crew C Rotation) (tid : ThreadId) (c : C)
    (w' : Crew C Rotation) : Prop
  | switches {next : ThreadId} {r : Rotation} {a : Resume C}
      (hrotate : w.ledger.schedulerState.rotate w.ledger.runner = (next, r))
      (hdecision : arb.decision c = next)
      (h : arb.switch tid c { w.ledger with schedulerState := r } = .ok a w'.ledger)
  /-- The hook does not call the arbiter. -/
  | stays {next : ThreadId} {r : Rotation}
      (hrotate : w.ledger.schedulerState.rotate w.ledger.runner = (next, r))
      (hhook : w.ledger.hookCalls next = false) (h : w'.ledger = { w.ledger with schedulerState := r })

theorem turns_of_round (h : w.round arb (.turn tid c) = some w') : Turns arb w tid c w' := by
  obtain ⟨next, r, hrotate⟩ : ∃ next r,
      w.ledger.schedulerState.rotate w.ledger.runner = (next, r) := ⟨_, _, rfl⟩
  simp only [round, turnMoves, hrotate] at h
  split at h
  next hdecision =>
    obtain ⟨v, hthink, h⟩ := of_run_cons h
    cases moves_of_next hthink
    obtain ⟨v, hcompute, h⟩ := of_run_cons h
    cases moves_of_next hcompute with
    | compute =>
      split at h
      next hhook =>
        obtain ⟨v, hswitch, h⟩ := of_run_cons h
        cases h
        cases moves_of_next hswitch with
        | switch hplace _ ho =>
          rw [place_put_self] at hplace
          cases hplace
          exact .switches hrotate hdecision ho
      next hhook =>
        cases h
        exact .stays hrotate (Bool.eq_false_iff.mpr hhook) rfl
  next => nomatch h

omit [Context C] in
/-- A turn that answers with the runner has found nobody in the queue, and leaves it so. -/
theorem lists_rotate_of_same {m : Ledger C Rotation} {r : Rotation} (h : m.Lists m.runner)
    (hrotate : m.schedulerState.rotate m.runner = (m.runner, r)) : r = m.schedulerState := by
  unfold Rotation.rotate at hrotate
  split at hrotate
  next => exact (Prod.ext_iff.mp hrotate).2.symm
  next first rest hcons =>
    have hfirst := (h.mem_iff first).mp (hcons ▸ List.mem_cons_self)
    exact absurd (Prod.ext_iff.mp hrotate).1 hfirst.2

theorem Turns.lists (hw : w.Stationed) (h : w.ledger.Lists w.ledger.runner)
    (ht : Turns arb w tid c w') : w'.ledger.Lists w'.ledger.runner := by
  have hb := hw.sound.balanced
  cases ht with
  | @switches next r a hrotate hdecision hswitch =>
    have ho : Switches arb tid c { w.ledger with schedulerState := r } (.ok a w'.ledger) :=
      hswitch ▸ switch_outcome hb
    have hok := (switch_ok_iff (m := { w.ledger with schedulerState := r }) hb).mp ⟨a, w'.ledger, hswitch⟩
    have hr : w.ledger.runner ≠ .nobody := hok.2.2.1
    have hrotated := h.rotated (hb.runner_inside hr)
    rw [hrotate] at hrotated
    refine ho.lists (m := { w.ledger with schedulerState := r }) hb ?_
    rw [hdecision]
    exact hrotated
  | @stays next r hrotate hhook heq =>
    obtain ⟨rfl, -⟩ := hw.sound.hookCalls_eq_false_iff.mp hhook
    rw [heq]
    exact h.congr (lists_rotate_of_same h hrotate) fun _ => .rfl

/-- **Every round keeps the queue in order.** -/
theorem lists_of_round (hp : arb.scheduler = Rotation.placing asked) (hw : w.Stationed)
    (h : w.ledger.Lists w.ledger.runner) (hround : w.round arb rd = some w') :
    w'.ledger.Lists w'.ledger.runner := by
  cases rd with
  | move mv =>
    simp only [round] at hround
    split at hround
    next hmv => exact (moves_of_next hround).lists hp hw hmv h
    next => nomatch hround
  | turn tid c => exact (turns_of_round hround).lists hw h

omit [Context C] in
/-- A new crew's queue is empty, and so is the program. -/
theorem lists_of_create {config : Config} {setup setup' : Setup C Rotation} {m : Ledger C Rotation}
    {scheduler : Scheduler C Rotation} (h : create scheduler {} config setup = .ok (arb, m) setup') :
    (new m).ledger.Lists (new m).ledger.runner := by
  obtain ⟨-, -, -, rfl⟩ := of_create_ok h
  refine ⟨List.nodup_nil, fun u => iff_of_false List.not_mem_nil fun hu => ?_⟩
  exact Table.not_inside_ofCapacity hu.1

/-- **The queue lists the idle threads and the blocked ones.**  In every state that a crew reaches whose
switches are turns of the rotation, whatever has been armed, blocked and unblocked in between: the queue
lists whoever is idle or blocked, each once; it lists exactly the idle threads if and only if nobody is
blocked; and a turn and the replacement of the runner, where anybody is idle, go wrong if and only if the
front of the queue is blocked.  The same holds where a newcomer has joined, before it pays a debt. -/
theorem backlog_of_rounds {config : Config} {setup setup' : Setup C Rotation} {m : Ledger C Rotation}
    (h : create (Rotation.placing asked) {} config setup = .ok (arb, m) setup')
    (hrun : (new m).rounds arb rds = some w) :
    w.ledger.Backlog arb.scheduler ∧
      ∀ tid c, w.ledger.table.Outside tid →
        (w.ledger.entered arb.scheduler tid c).Backlog arb.scheduler := by
  obtain ⟨-, hp, -, -⟩ := of_create_ok h
  have hinv : w.Stationed ∧ w.ledger.Lists w.ledger.runner := by
    refine of_rounds (P := fun v => v.Stationed ∧ v.ledger.Lists v.ledger.runner) ?_
      ⟨stationed_of_create h, lists_of_create h⟩ hrun
    rintro v v' rd ⟨hw, hlists⟩ hround
    exact ⟨stationed_of_round hw hround, lists_of_round hp hw hlists hround⟩
  obtain ⟨hw, hlists⟩ := hinv
  have hb := hw.sound.balanced
  rw [hp]
  exact ⟨hlists.backlog hb, fun tid c hs => (lists_entered hlists hb hs).backlog (entered_balanced hb _ c hs)⟩

/-- Three threads arrive, one turn makes the second one run, and the third one is blocked. -/
def thirdBlocked : List (Round Cursor) :=
  [.move (.start ⟨0⟩ (.start ⟨0⟩)), .move (.arrive ⟨0⟩), .move (.start ⟨1⟩ (.start ⟨1⟩)),
    .move (.arrive ⟨1⟩), .move (.start ⟨2⟩ (.start ⟨2⟩)), .move (.arrive ⟨2⟩),
    .turn ⟨0⟩ (threeSlots.stampExecutor ⟨1⟩ (.start ⟨0⟩)), .move (.request (.block ⟨2⟩))]

/-- The blocked one is at the front of the queue, and a departure fails although the first one is idle. -/
theorem backlog_of_rounds_block :
    ∃ (w : Crew Cursor Rotation) (k : Ledger Cursor Rotation),
      (new (.fresh 3 {})).rounds threeSlots thirdBlocked = some w ∧
      w.ledger.schedulerState.ready = [⟨2⟩, ⟨0⟩] ∧
      w.ledger.table.states = [.idle, .running, .blocked] ∧
      ¬ (∀ u, u ∈ w.ledger.schedulerState.ready ↔ w.ledger.table.state? u = some .idle) ∧
      ¬ w.ledger.Chooses threeSlots.scheduler ∧
      threeSlots.depart ⟨0⟩ (.start ⟨1⟩) w.ledger = .error (.violation (.notIdle ⟨2⟩ .blocked)) k := by
  obtain ⟨setup, h⟩ := create_threeSlots
  obtain ⟨w, k, hrun, hready, hstates, hblocked, hidle, hdepart⟩ :
      ∃ (w : Crew Cursor Rotation) (k : Ledger Cursor Rotation),
        (new (.fresh 3 {})).rounds threeSlots thirdBlocked = some w ∧
        w.ledger.schedulerState.ready = [⟨2⟩, ⟨0⟩] ∧
        w.ledger.table.states = [.idle, .running, .blocked] ∧
        w.ledger.table.state? ⟨2⟩ = some .blocked ∧ w.ledger.table.state? ⟨0⟩ = some .idle ∧
        threeSlots.depart ⟨0⟩ (.start ⟨1⟩) w.ledger = .error (.violation (.notIdle ⟨2⟩ .blocked)) k :=
    ⟨_, _, rfl, rfl, rfl, rfl, rfl, rfl⟩
  obtain ⟨hbacklog, -⟩ := backlog_of_rounds h hrun
  refine ⟨w, k, hrun, hready, hstates, fun hexact => ?_, fun hchooses => ?_, hdepart⟩
  · exact hbacklog.idle_iff.mp hexact ⟨2⟩ hblocked
  · exact (hbacklog.chooses_iff ⟨⟨0⟩, hidle⟩).mp hchooses ⟨⟨2⟩, [⟨0⟩], hready, hblocked⟩

end Crew

end SoleRunner
