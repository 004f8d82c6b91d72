import SoleRunner.Proofs.Steps
import SoleRunner.Simulation.Beat

/-!
# Proofs/Simulation/Beats — what a beat can be

`Acts` lists what a thread can do in a beat that succeeds: a call of the arbiter, the end of a wait, or a
piece of its own code (`Runs`), which leaves the ledger alone but for the scheduler's state.
`Machine.of_beats` carries a property from one beat to a row of them.
-/

namespace SoleRunner.Simulation

variable {σ π α : Type} {w w' : World σ π} {me : ThreadId} {c c' : Cursor} {x x' : Worker}
  {i : Nat}

/-! ## Worlds -/

namespace World

/-- The world with another ledger. -/
def withLedger (w : World σ π) (m : Ledger Cursor σ) : World σ π := { w with ledger := m }

/-- The world once a policy has been asked. -/
def thought (w : World σ π) (s : σ) (p : π) : World σ π :=
  { w with ledger := { w.ledger with schedulerState := s }, policyState := p }

/-- What a critical section of thread `me` makes of the world, when `f` makes a worker of its answer. -/
def answered (w : World σ π) (f : α → Worker) :
    EStateM.Result Fault (Ledger Cursor σ) α → EStateM.Result Fault (World σ π) Worker
  | .ok a m => .ok (f a) (w.withLedger m)
  | .error e m => .error e (w.withLedger m)

/-- The world that a step leaves behind, whether it succeeds or fails. -/
def after : EStateM.Result Fault (World σ π) α → World σ π
  | .ok _ w => w
  | .error _ w => w

theorem history_answered (f : α → Worker) (r : EStateM.Result Fault (Ledger Cursor σ) α) :
    (after (w.answered f r)).history = w.history := by
  cases r <;> rfl

theorem of_answered {f : α → Worker} {r : EStateM.Result Fault (Ledger Cursor σ) α}
    (h : w.answered f r = .ok x w') : ∃ a m, r = .ok a m ∧ x = f a ∧ w' = w.withLedger m := by
  cases r with
  | ok a m =>
    cases h
    exact ⟨a, m, rfl, rfl, rfl⟩
  | error e m => nomatch h

@[simp] theorem ledger_record (w : World σ π) (me : ThreadId) (c : Cursor) (act : Act) :
    (w.record me c act).ledger = w.ledger := rfl

@[simp] theorem ledger_withWorker (w : World σ π) (i : Nat) (x : Worker) :
    (w.withWorker i x).ledger = w.ledger := rfl

@[simp] theorem withWorker_withWorker (w : World σ π) (i : Nat) (x y : Worker) :
    (w.withWorker i x).withWorker i y = w.withWorker i y := by
  simp only [withWorker, Array.setIfInBounds_setIfInBounds]

theorem workers_withWorker_self (h : i < w.workers.size) (y : Worker) :
    (w.withWorker i y).workers[i]? = some y := Array.getElem?_setIfInBounds_self_of_lt h

/-- Threads neither come nor go. -/
theorem size_withWorker {v : World σ π} (hv : v.workers = w.workers) (i : Nat) (x : Worker) :
    (v.withWorker i x).workers.size = w.workers.size := by
  rw [withWorker, Array.size_setIfInBounds, hv]

theorem withWorker_self (hx : w.workers[i]? = some x) : w.withWorker i x = w := by
  obtain ⟨hi, rfl⟩ := Array.getElem?_eq_some_iff.mp hx
  rw [World.withWorker, Array.setIfInBounds, dif_pos hi, Array.set_getElem_self]

/-- Taking a permit that is not there changes nothing. -/
theorem woken_of_not_hasPermit {m : Ledger Cursor σ} {tid : ThreadId} (h : m.hasPermit tid = false) :
    m.woken tid = m := by
  have hsame : m.permits.setIfInBounds tid.index false = m.permits := by
    refine Array.ext_getElem? fun j => ?_
    rw [Array.getElem?_setIfInBounds]
    split
    next hj =>
      subst hj
      split
      next hlt =>
        rw [Ledger.hasPermit, Array.getElem?_eq_getElem hlt] at h
        rw [Array.getElem?_eq_getElem hlt, show m.permits[tid.index] = false from h]
      next hge => exact (Array.getElem?_eq_none (Nat.not_lt.mp hge)).symm
    next => rfl
  rw [Ledger.woken, hsame]

end World

namespace Machine

variable {machine : Machine σ π}

/-! ## Steps -/

theorem bind_apply {β : Type} (x : RunStep σ π α) (f : α → RunStep σ π β) (w : World σ π) :
    (x >>= f) w = match x w with
      | .ok a w' => f a w'
      | .error e w' => .error e w' := by
  simp only [bind, EStateM.bind]
  cases x w <;> rfl

theorem get_apply (w : World σ π) : (get : RunStep σ π (World σ π)) w = .ok w w := rfl

theorem modify_apply (g : World σ π → World σ π) (w : World σ π) :
    (modify g : RunStep σ π PUnit) w = .ok ⟨⟩ (g w) := rfl

/-! ## The calls -/

theorem answer_apply (x : Critical Cursor σ α) (f : α → Worker) (w : World σ π) :
    (critical x >>= fun a => pure (f a) : RunStep σ π Worker) w = w.answered f (x w.ledger) := by
  rw [bind_apply, critical]
  cases x w.ledger <;> rfl

theorem call_start : machine.call me c .start w =
    w.answered (⟨·, .going⟩) (machine.arbiter.startThread me c w.ledger) := answer_apply ..

theorem call_arrival : machine.call me c .arrival w =
    (w.record me c .arrived).answered (.ofArrival c) (machine.arbiter.arrive me c w.ledger) :=
  answer_apply _ _ (w.record me c .arrived)

theorem call_departure : machine.call me c .departure w =
    w.answered (⟨·.context, .going⟩) (machine.arbiter.depart me c w.ledger) := answer_apply ..

theorem call_switch : machine.call me c .switch w =
    w.answered (⟨·.context, .going⟩) (machine.arbiter.switch me c w.ledger) := answer_apply ..

/-- The message about an exit comes after it. -/
theorem call_finish (machine : Machine σ π) (me : ThreadId) (c : Cursor) (w : World σ π) :
    ∃ entry, machine.call me c .finish w =
      match machine.arbiter.endThread me w.ledger with
      | .ok () m => .ok ⟨c, .ended⟩ ((w.record me c .ended).withLedger (m.logged (m.log.push entry)))
      | .error e m => .error e ((w.record me c .ended).withLedger m) := by
  refine ⟨.message .debug s!"sim thread {me} exited", ?_⟩
  simp only [call, bind_apply, modify_apply, critical, World.ledger_record]
  cases machine.arbiter.endThread me w.ledger <;> rfl

/-- A call for a thread that was woken takes the permit, and looks again if there was one. -/
theorem call_wake : machine.call me c .wake w =
    if w.ledger.hasPermit me then
      (w.withLedger (w.ledger.woken me)).answered (.ofArrival c)
        (machine.arbiter.lookAgain me (w.ledger.woken me))
    else .ok ⟨c, .asleep⟩ w := by
  refine (answer_apply ..).trans ?_
  rw [Arbiter.await, Critical.bind_of_ok (Critical.takePermit_apply me w.ledger)]
  cases h : w.ledger.hasPermit me with
  | true =>
    change w.answered _ (machine.arbiter.lookAgain me (w.ledger.woken me)) = _
    cases machine.arbiter.lookAgain me (w.ledger.woken me) <;> rfl
  | false =>
    change EStateM.Result.ok (⟨c, .asleep⟩ : Worker) (w.withLedger (w.ledger.woken me)) = _
    rw [World.woken_of_not_hasPermit h]
    rfl

/-! ## What a beat can be -/

/-- The first operation that a cursor has still to run. -/
def nextOp (machine : Machine σ π) (c : Cursor) : Option Op := (machine.remaining c).head?

/-- **What a thread can do by itself** in a round of its loop, or after a decision. -/
inductive Runs (machine : Machine σ π) (me : ThreadId) (w : World σ π) :
    Worker → Worker → World σ π → Prop
  /-- Its program is over, and it exits: through the syscall guard if it is the executor. -/
  | departs {c : Cursor} (hop : machine.nextOp c = none) (hrole : machine.role c ≠ 0) :
      Runs machine me w ⟨c, .going⟩ ⟨c, .due .departure⟩ w
  | finishes {c : Cursor} (hop : machine.nextOp c = none) (hrole : machine.role c = 0) :
      Runs machine me w ⟨c, .going⟩ ⟨c, .due .finish⟩ w
  /-- It is about to compute without the executor's mark. -/
  | arrives {c : Cursor} (hop : machine.nextOp c = some .compute) (hrole : machine.role c = 0) :
      Runs machine me w ⟨c, .going⟩ ⟨{ c with hooked := true }, .due .arrival⟩ w
  | computes {c : Cursor} (hop : machine.nextOp c = some .compute) (hrole : machine.role c ≠ 0) :
      Runs machine me w ⟨c, .going⟩ ⟨c.advance, .going⟩ (w.record me c .computed)
  /-- It is about to make a system call with the executor's mark. -/
  | ships {c : Cursor} (hop : machine.nextOp c = some .syscall) (hrole : machine.role c ≠ 0) :
      Runs machine me w ⟨c, .going⟩ ⟨c, .due .departure⟩ w
  | syscalls {c : Cursor} (hop : machine.nextOp c = some .syscall) (hrole : machine.role c = 0) :
      Runs machine me w ⟨c, .going⟩ ⟨c.advance, .going⟩ (w.record me c .syscalled)
  /-- Its policy breaks down. -/
  | crashes {c : Cursor} {s : σ} {p : π} (hrole : machine.role c ≠ 0)
      (hpolicy : machine.policy c.owner w.ledger.schedulerState w.policyState = (none, s, p)) :
      Runs machine me w ⟨c, .going⟩ ⟨c, .crashed⟩ (w.thought s p)
  /-- Its policy names the thread to run next. -/
  | decides {c : Cursor} {next : ThreadId} {s : σ} {p : π} (hrole : machine.role c ≠ 0)
      (hpolicy : machine.policy c.owner w.ledger.schedulerState w.policyState = (some next, s, p))
      (hhook : machine.unhooked c = false) (hop : machine.nextOp c ≠ none) :
      Runs machine me w ⟨c, .going⟩
        ⟨{ c.setReg machine.choiceReg next.toReg with hooked := true }, .decided next⟩
        ((w.thought s p).record me c (.decided next))
  /-- The decision calls for a switch. -/
  | turns {c : Cursor} {next : ThreadId} (hhook : w.ledger.hookCalls next) :
      Runs machine me w ⟨c, .decided next⟩ ⟨c, .due .switch⟩ w
  | stays {c : Cursor} {next : ThreadId} (hhook : w.ledger.hookCalls next = false) :
      Runs machine me w ⟨c, .decided next⟩ ⟨c, .going⟩ w

/-- **What a beat can be** that succeeds: the worker before it and after it, and the world after it. -/
inductive Acts (machine : Machine σ π) (me : ThreadId) (w : World σ π) :
    Worker → Worker → World σ π → Prop
  | start {c c' : Cursor} {m : Ledger Cursor σ}
      (h : machine.arbiter.startThread me c w.ledger = .ok c' m) :
      Acts machine me w ⟨c, .due .start⟩ ⟨c', .going⟩ (w.withLedger m)
  | arrive {c : Cursor} {a : Arrival Cursor} {m : Ledger Cursor σ}
      (h : machine.arbiter.arrive me c w.ledger = .ok a m) :
      Acts machine me w ⟨c, .due .arrival⟩ (.ofArrival c a) ((w.record me c .arrived).withLedger m)
  | depart {c : Cursor} {r : Resume Cursor} {m : Ledger Cursor σ}
      (h : machine.arbiter.depart me c w.ledger = .ok r m) :
      Acts machine me w ⟨c, .due .departure⟩ ⟨r.context, .going⟩ (w.withLedger m)
  | switch {c : Cursor} {r : Resume Cursor} {m : Ledger Cursor σ}
      (h : machine.arbiter.switch me c w.ledger = .ok r m) :
      Acts machine me w ⟨c, .due .switch⟩ ⟨r.context, .going⟩ (w.withLedger m)
  | finish {c : Cursor} {m : Ledger Cursor σ} {log : Array Log.Entry}
      (h : machine.arbiter.endThread me w.ledger = .ok () m) :
      Acts machine me w ⟨c, .due .finish⟩ ⟨c, .ended⟩ ((w.record me c .ended).withLedger (m.logged log))
  /-- The wait returns, and clears the permit. -/
  | wake {c : Cursor} (h : w.ledger.hasPermit me) :
      Acts machine me w ⟨c, .asleep⟩ ⟨c, .awake⟩ (w.withLedger (w.ledger.woken me))
  | look {c : Cursor} {a : Arrival Cursor} {m : Ledger Cursor σ}
      (h : machine.arbiter.lookAgain me w.ledger = .ok a m) :
      Acts machine me w ⟨c, .awake⟩ (.ofArrival c a) (w.withLedger m)
  | runs {x x' : Worker} {w' : World σ π} (h : Runs machine me w x x' w') : Acts machine me w x x' w'
  /-- It sleeps on, or is gone. -/
  | rests {x : Worker} (h : x.stage = .asleep ∧ w.ledger.hasPermit me = false ∨
      x.stage = .ended ∨ x.stage = .crashed) : Acts machine me w x x w

theorem role_ne_zero_of_not_unhooked (h : machine.unhooked c = false) : machine.role c ≠ 0 := by
  intro hrole
  rw [unhooked, hrole] at h
  nomatch h

/-- **A round is one of the listed things.** -/
theorem runs_of_round : Runs machine me w ⟨c, .going⟩ (machine.round me c w).1
    (machine.round me c w).2 := by
  have hop : machine.nextOp c = (machine.remaining c).head? := rfl
  unfold round
  split
  next hnil =>
    rw [hnil] at hop
    unfold retire
    by_cases hrole : machine.role c = 0
    · rw [hrole]
      exact .finishes hop hrole
    · rw [syscallGuarded, bne_iff_ne.mpr hrole]
      exact .departs hop hrole
  next op ops hcons =>
    rw [hcons] at hop
    cases hhook : machine.unhooked c with
    | true =>
      rw [if_pos rfl]
      cases op with
      | compute =>
        by_cases hrole : machine.role c = 0
        · rw [operate, hrole]
          exact .arrives hop hrole
        · rw [operate, entryGuarded, beq_false_of_ne hrole]
          exact .computes hop hrole
      | syscall =>
        by_cases hrole : machine.role c = 0
        · rw [operate, hrole]
          exact .syscalls hop hrole
        · rw [operate, syscallGuarded, bne_iff_ne.mpr hrole]
          exact .ships hop hrole
    | false =>
      have hrole := role_ne_zero_of_not_unhooked hhook
      rw [if_neg Bool.false_ne_true, decide]
      obtain ⟨answer, s, p, hpolicy⟩ : ∃ answer s p,
          machine.policy c.owner w.ledger.schedulerState w.policyState = (answer, s, p) := ⟨_, _, _, rfl⟩
      rw [hpolicy]
      cases answer with
      | none => exact .crashes hrole hpolicy
      | some next => exact .decides hrole hpolicy hhook (hop ▸ nofun)

/-- **A beat that succeeds is one of the listed ones.**  No thread is ever due for a wake-up: one that
is woken is asleep until then. -/
theorem acts_of_act (hwake : x.stage ≠ .due .wake) (h : machine.act me x w = .ok x' w') :
    Acts machine me w x x' w' := by
  obtain ⟨c, stage⟩ := x
  cases stage with
  | due p =>
    change machine.call me c p w = .ok x' w' at h
    cases p with
    | start =>
      obtain ⟨c', m, hm, rfl, rfl⟩ := World.of_answered (call_start ▸ h)
      exact .start hm
    | arrival =>
      obtain ⟨a, m, hm, rfl, rfl⟩ := World.of_answered (call_arrival ▸ h)
      exact .arrive hm
    | departure =>
      obtain ⟨r, m, hm, rfl, rfl⟩ := World.of_answered (call_departure ▸ h)
      exact .depart hm
    | switch =>
      obtain ⟨r, m, hm, rfl, rfl⟩ := World.of_answered (call_switch ▸ h)
      exact .switch hm
    | finish =>
      obtain ⟨entry, hcall⟩ := call_finish machine me c w
      rw [hcall] at h
      split at h
      next m hm =>
        cases h
        exact .finish hm
      next => nomatch h
    | wake => exact absurd rfl hwake
  | going =>
    cases h
    exact .runs runs_of_round
  | decided next =>
    cases h
    cases hhook : w.ledger.hookCalls next with
    | true => exact .runs (.turns hhook)
    | false => exact .runs (.stays hhook)
  | asleep =>
    cases h
    cases hpermit : w.ledger.hasPermit me with
    | true => exact .wake hpermit
    | false =>
      change Acts machine me w ⟨c, .asleep⟩ ⟨c, .asleep⟩ (w.withLedger (w.ledger.woken me))
      rw [World.woken_of_not_hasPermit hpermit]
      exact .rests (.inl ⟨rfl, hpermit⟩)
  | awake =>
    obtain ⟨a, m, hm, rfl, rfl⟩ := World.of_answered ((answer_apply ..).symm.trans h)
    exact .look hm
  | ended =>
    cases h
    exact .rests (.inr (.inl rfl))
  | crashed =>
    cases h
    exact .rests (.inr (.inr rfl))

/-! ## Rows of beats -/

theorem beat_of_some (h : w.workers[i]? = some x) : machine.beat i w =
    match machine.act (.ofIndex i) x w with
    | .ok x' w' => .ok () (w'.withWorker i x')
    | .error e w' => .error e w' := by
  simp only [beat, bind_apply, get_apply, h]
  cases machine.act (.ofIndex i) x w <;> rfl

theorem beat_of_none (h : w.workers[i]? = none) : machine.beat i w = .ok () w := by
  simp only [beat, bind_apply, get_apply, h]
  rfl

/-- A beat is one of a thread, or nothing. -/
theorem of_beat (h : machine.beat i w = .ok () w') : w' = w ∨
    ∃ x x' v, w.workers[i]? = some x ∧ machine.act (.ofIndex i) x w = .ok x' v ∧
      w' = v.withWorker i x' := by
  cases hx : w.workers[i]? with
  | none =>
    rw [beat_of_none hx] at h
    cases h
    exact .inl rfl
  | some x =>
    rw [beat_of_some hx] at h
    split at h
    next x' v hact =>
      cases h
      exact .inr ⟨x, x', v, rfl, hact, rfl⟩
    next => nomatch h

variable {is js : List Nat}

theorem beats_cons : machine.beats (i :: is) w =
    match machine.beat i w with
    | .ok () w' => machine.beats is w'
    | .error e w' => .error e w' := by
  rw [beats, bind_apply]
  cases machine.beat i w <;> rfl

theorem beats_append : machine.beats (is ++ js) w =
    match machine.beats is w with
    | .ok () w' => machine.beats js w'
    | .error e w' => .error e w' := by
  induction is generalizing w with
  | nil => rfl
  | cons i is ih =>
    rw [List.cons_append, beats_cons, beats_cons]
    cases machine.beat i w with
    | ok _ v => exact ih
    | error e v => rfl

/-- **What every beat keeps, every row of beats keeps.** -/
theorem of_beats {P : World σ π → Prop}
    (hbeat : ∀ w w' i, P w → machine.beat i w = .ok () w' → P w') (hw : P w)
    (h : machine.beats is w = .ok () w') : P w' := by
  induction is generalizing w with
  | nil =>
    cases h
    exact hw
  | cons i is ih =>
    rw [beats_cons] at h
    split at h
    next v hv => exact ih (hbeat w v i hw hv) h
    next => nomatch h

end Machine

end SoleRunner.Simulation
