import SoleRunner.Arbiter.Audit
import SoleRunner.Proofs.AnyRun

/-!
# Proofs/Crew — OS threads that use an arbiter as they should

A `Crew` is a ledger together with where each OS thread is.  A thread of a crew starts, and calls
handlers with its own name and with the context it was resumed with, which it may change in everything
but the role register; that register says which handlers it may call, and while its arrival waits it
calls none.  `Crew.next` is one critical section, or one thing that a thread does by itself: it has no
result where a thread would break these rules, and none where a handler fails, since that ends the
process.  Requests come at any time and may fail.

`Moves` lists what a move of a crew can be, and `Crew.of_run` carries a property from one move to a run.
-/

namespace SoleRunner

/-- Where an OS thread is. -/
inductive Place (C : Type) where
  /-- It has not started, or it has exited. -/
  | absent
  /-- In some code, with this context; `last` is the answer that resumed it, if it arrived before. -/
  | outside (context : C) (last : Option (Resume C))
  /-- At its wake slot, in an arrival; `awake` once its wait has returned, until it looks again. -/
  | inside (awake : Bool)

/-- A thread that has been resumed is outside, with the context that it got. -/
def Resume.place {C : Type} (r : Resume C) : Place C := .outside r.context (some r)

/-- Where an arrival's critical section leaves the thread. -/
def Arrival.place {C : Type} : Arrival C → Place C
  | .resumed r => r.place
  | .waiting => .inside false

/-- **A ledger and the OS threads around it.** -/
structure Crew (C σ : Type) where
  ledger : Ledger C σ
  place : ThreadId → Place C

/-- **What can happen to a crew** in one step. -/
inductive Move (C σ : Type) where
  | start (tid : ThreadId) (context : C)
  | arrive (tid : ThreadId)
  | depart (tid : ThreadId)
  | switch (tid : ThreadId)
  | finish (tid : ThreadId)
  /-- A thread goes on by itself, up to this context. -/
  | compute (tid : ThreadId) (context : C)
  /-- The wait of an arrival returns, and clears the permit. -/
  | wake (tid : ThreadId)
  /-- An arrival looks again after its wait. -/
  | look (tid : ThreadId)
  | plan (u : CodeUnit)
  | request (c : Call C)
  /-- The saved context of a thread that does not run is edited. -/
  | edit (tid : ThreadId) (f : C → C)
  /-- The scheduler changes its mind. -/
  | think (s : σ)

namespace Crew

open Critical

variable {C σ α : Type}

/-- Nobody has started yet. -/
def new (m : Ledger C σ) : Crew C σ := ⟨m, fun _ => .absent⟩

/-- The crew with ledger `m` and with `tid` at `p`. -/
def put (w : Crew C σ) (m : Ledger C σ) (tid : ThreadId) (p : Place C) : Crew C σ :=
  ⟨m, fun u => if u = tid then p else w.place u⟩

@[simp] theorem ledger_put (w : Crew C σ) (m : Ledger C σ) (tid : ThreadId) (p : Place C) :
    (w.put m tid p).ledger = m := rfl

@[simp] theorem place_put_self (w : Crew C σ) (m : Ledger C σ) (tid : ThreadId) (p : Place C) :
    (w.put m tid p).place tid = p := if_pos rfl

@[simp] theorem place_put_of_ne {w : Crew C σ} {m : Ledger C σ} {tid u : ThreadId} {p : Place C}
    (h : u ≠ tid) : (w.put m tid p).place u = w.place u := if_neg h

theorem put_self (w : Crew C σ) (tid : ThreadId) : w.put w.ledger tid (w.place tid) = w := by
  refine congrArg (Crew.mk w.ledger) (funext fun u => ?_)
  split
  next h => rw [h]
  next => rfl

/-- What a thread's critical section makes of the crew; nothing if it fails. -/
def handled (w : Crew C σ) (tid : ThreadId) (place : α → Place C) :
    EStateM.Result Fault (Ledger C σ) α → Option (Crew C σ)
  | .ok a m => some (w.put m tid (place a))
  | .error _ _ => none

/-- A thread outside calls a handler with its context, if that allows the call. -/
def calls (w : Crew C σ) (tid : ThreadId) (allowed : C → Bool) (handler : C → Critical C σ α)
    (place : α → Place C) : Option (Crew C σ) :=
  match w.place tid with
  | .outside c _ => if allowed c then w.handled tid place (handler c w.ledger) else none
  | _ => none

variable [Context C]

/-- **One step of a crew**; nothing where the move is against the rules or a handler fails. -/
def next (arb : Arbiter C σ) (w : Crew C σ) : Move C σ → Option (Crew C σ)
  | .start tid c =>
    match w.place tid with
    | .absent => w.handled tid (fun c => .outside c none) (arb.startThread tid c w.ledger)
    | _ => none
  | .arrive tid =>
    w.calls tid (fun c => entryGuarded (Context.reg c arb.roleReg)) (arb.arrive tid) Arrival.place
  | .depart tid =>
    w.calls tid (fun c => syscallGuarded (Context.reg c arb.roleReg)) (arb.depart tid) Resume.place
  | .switch tid =>
    w.calls tid (fun c => syscallGuarded (Context.reg c arb.roleReg)) (arb.switch tid) Resume.place
  | .finish tid =>
    w.calls tid (fun c => entryGuarded (Context.reg c arb.roleReg)) (fun _ => arb.endThread tid)
      (fun _ => .absent)
  | .compute tid c' =>
    match w.place tid with
    | .outside c last =>
      if Context.reg c' arb.roleReg = Context.reg c arb.roleReg then
        some (w.put w.ledger tid (.outside c' last))
      else none
    | _ => none
  | .wake tid =>
    match w.place tid with
    | .inside false =>
      if w.ledger.hasPermit tid then
        some (w.put (left (takePermit tid w.ledger)) tid (.inside true))
      else none
    | _ => none
  | .look tid =>
    match w.place tid with
    | .inside true => w.handled tid Arrival.place (arb.lookAgain tid w.ledger)
    | _ => none
  | .plan u =>
    match arb.planUnit u w.ledger with
    | .ok _ m => some { w with ledger := m }
    | .error _ _ => none
  | .request c =>
    if c.isHandler then none else some { w with ledger := left (arb.perform c w.ledger) }
  | .edit tid f =>
    some { w with ledger := left (Arbiter.editContext tid (fun c => ((), f c)) w.ledger) }
  | .think s => some { w with ledger := { w.ledger with schedulerState := s } }

/-- The crew after the moves of a list, one after another; nothing if one of them cannot be made. -/
def run (arb : Arbiter C σ) (w : Crew C σ) (mvs : List (Move C σ)) : Option (Crew C σ) :=
  mvs.foldlM (fun w mv => w.next arb mv) w

/-! ## What a move can be -/

/-- **The moves of a crew**, each with what allows it and what it leaves. -/
inductive Moves (arb : Arbiter C σ) (w : Crew C σ) : Move C σ → Crew C σ → Prop
  | start {tid : ThreadId} {c c' : C} {m : Ledger C σ} (hp : w.place tid = .absent)
      (h : arb.startThread tid c w.ledger = .ok c' m) :
      Moves arb w (.start tid c) (w.put m tid (.outside c' none))
  | arrive {tid : ThreadId} {c : C} {last : Option (Resume C)} {a : Arrival C} {m : Ledger C σ}
      (hp : w.place tid = .outside c last) (hg : Context.reg c arb.roleReg = 0)
      (h : arb.arrive tid c w.ledger = .ok a m) : Moves arb w (.arrive tid) (w.put m tid a.place)
  | depart {tid : ThreadId} {c : C} {last : Option (Resume C)} {r : Resume C} {m : Ledger C σ}
      (hp : w.place tid = .outside c last) (hg : Context.reg c arb.roleReg ≠ 0)
      (h : arb.depart tid c w.ledger = .ok r m) : Moves arb w (.depart tid) (w.put m tid r.place)
  | switch {tid : ThreadId} {c : C} {last : Option (Resume C)} {r : Resume C} {m : Ledger C σ}
      (hp : w.place tid = .outside c last) (hg : Context.reg c arb.roleReg ≠ 0)
      (h : arb.switch tid c w.ledger = .ok r m) : Moves arb w (.switch tid) (w.put m tid r.place)
  | finish {tid : ThreadId} {c : C} {last : Option (Resume C)} {m : Ledger C σ}
      (hp : w.place tid = .outside c last) (hg : Context.reg c arb.roleReg = 0)
      (h : arb.endThread tid w.ledger = .ok () m) : Moves arb w (.finish tid) (w.put m tid .absent)
  | compute {tid : ThreadId} {c c' : C} {last : Option (Resume C)}
      (hp : w.place tid = .outside c last)
      (hg : Context.reg c' arb.roleReg = Context.reg c arb.roleReg) :
      Moves arb w (.compute tid c') (w.put w.ledger tid (.outside c' last))
  | wake {tid : ThreadId} (hp : w.place tid = .inside false) (h : w.ledger.hasPermit tid) :
      Moves arb w (.wake tid) (w.put (left (takePermit tid w.ledger)) tid (.inside true))
  | look {tid : ThreadId} {a : Arrival C} {m : Ledger C σ} (hp : w.place tid = .inside true)
      (h : arb.lookAgain tid w.ledger = .ok a m) : Moves arb w (.look tid) (w.put m tid a.place)
  | plan {u : CodeUnit} : Moves arb w (.plan u) { w with ledger := left (arb.planUnit u w.ledger) }
  | request {c : Call C} (hc : c.isHandler = false) :
      Moves arb w (.request c) { w with ledger := left (arb.perform c w.ledger) }
  | edit {tid : ThreadId} {f : C → C} :
      Moves arb w (.edit tid f)
        { w with ledger := left (Arbiter.editContext tid (fun c => ((), f c)) w.ledger) }
  | think {s : σ} :
      Moves arb w (.think s) { w with ledger := { w.ledger with schedulerState := s } }

variable {arb : Arbiter C σ} {w w' : Crew C σ} {mv : Move C σ} {mvs : List (Move C σ)}

omit [Context C] in
theorem of_handled {tid : ThreadId} {place : α → Place C} {r : EStateM.Result Fault (Ledger C σ) α}
    (h : w.handled tid place r = some w') : ∃ a m, r = .ok a m ∧ w' = w.put m tid (place a) := by
  cases r with
  | ok a m => exact ⟨a, m, rfl, (Option.some.inj h).symm⟩
  | error e m => nomatch h

omit [Context C] in
theorem of_calls {tid : ThreadId} {allowed : C → Bool} {handler : C → Critical C σ α}
    {place : α → Place C} (h : w.calls tid allowed handler place = some w') :
    ∃ c last a m, w.place tid = .outside c last ∧ allowed c ∧ handler c w.ledger = .ok a m ∧
      w' = w.put m tid (place a) := by
  unfold calls at h
  split at h
  next c last hp =>
    by_cases ha : allowed c
    · rw [if_pos ha] at h
      obtain ⟨a, m, hr, rfl⟩ := of_handled h
      exact ⟨c, last, a, m, hp, ha, hr, rfl⟩
    · rw [if_neg ha] at h
      nomatch h
  next => nomatch h

/-- **A move that can be made is one of the listed ones.** -/
theorem moves_of_next (h : w.next arb mv = some w') : Moves arb w mv w' := by
  cases mv with
  | start tid c =>
    simp only [next] at h
    split at h
    next hp =>
      obtain ⟨c', m, hr, rfl⟩ := of_handled h
      exact .start hp hr
    next => nomatch h
  | arrive tid =>
    obtain ⟨c, last, a, m, hp, hg, hr, rfl⟩ := of_calls h
    exact .arrive hp (eq_of_beq hg) hr
  | depart tid =>
    obtain ⟨c, last, r, m, hp, hg, hr, rfl⟩ := of_calls h
    exact .depart hp (bne_iff_ne.mp hg) hr
  | switch tid =>
    obtain ⟨c, last, r, m, hp, hg, hr, rfl⟩ := of_calls h
    exact .switch hp (bne_iff_ne.mp hg) hr
  | finish tid =>
    obtain ⟨c, last, _, m, hp, hg, hr, rfl⟩ := of_calls h
    exact .finish hp (eq_of_beq hg) hr
  | compute tid c' =>
    simp only [next] at h
    split at h
    next c last hp =>
      split at h
      next hg => exact Option.some.inj h ▸ .compute hp hg
      next => nomatch h
    next => nomatch h
  | wake tid =>
    simp only [next] at h
    split at h
    next hp =>
      split at h
      next hpermit => exact Option.some.inj h ▸ .wake hp hpermit
      next => nomatch h
    next => nomatch h
  | look tid =>
    simp only [next] at h
    split at h
    next hp =>
      obtain ⟨a, m, hr, rfl⟩ := of_handled h
      exact .look hp hr
    next => nomatch h
  | plan u =>
    simp only [next] at h
    split at h
    next p m hr =>
      have hm : m = left (arb.planUnit u w.ledger) := by rw [hr]; rfl
      exact Option.some.inj h ▸ hm ▸ .plan
    next => nomatch h
  | request c =>
    simp only [next] at h
    split at h
    next => nomatch h
    next hc => exact Option.some.inj h ▸ .request (Bool.eq_false_iff.mpr hc)
  | edit tid f => exact Option.some.inj h ▸ .edit
  | think s => exact Option.some.inj h ▸ .think

/-! ## Runs -/

@[simp] theorem run_nil : w.run arb [] = some w := rfl

theorem run_cons : w.run arb (mv :: mvs) = (w.next arb mv).bind fun w' => w'.run arb mvs :=
  List.foldlM_cons

theorem of_run_cons (h : w.run arb (mv :: mvs) = some w') :
    ∃ v, w.next arb mv = some v ∧ v.run arb mvs = some w' := by
  rw [run_cons] at h
  exact Option.bind_eq_some_iff.mp h

theorem run_append {mvs' : List (Move C σ)} :
    w.run arb (mvs ++ mvs') = (w.run arb mvs).bind fun v => v.run arb mvs' := List.foldlM_append

/-- **What every move keeps, every run keeps.** -/
theorem of_run {P : Crew C σ → Prop} (hstep : ∀ v v' mv, P v → Moves arb v mv v' → P v') (hw : P w)
    (h : w.run arb mvs = some w') : P w' := by
  induction mvs generalizing w with
  | nil => exact Option.some.inj h ▸ hw
  | cons mv mvs ih =>
    obtain ⟨v, hmv, hrun⟩ := of_run_cons h
    exact ih (hstep w v mv hw (moves_of_next hmv)) hrun

/-- **What a move makes of the ledger, an event makes of it**, if the move touches it at all. -/
theorem Moves.reacts (h : Moves arb w mv w') :
    w'.ledger = w.ledger ∨ ∃ e, w'.ledger = arb.react w.ledger e := by
  cases h with
  | @start tid c c' m hp h =>
    exact .inr ⟨.call (.start tid c), (left_answer (· = m) (congrArg left h)).symm⟩
  | @arrive tid c last a m hp hg h =>
    exact .inr ⟨.call (.arrive tid c), (left_answer (· = m) (congrArg left h)).symm⟩
  | @depart tid c last r m hp hg h =>
    exact .inr ⟨.call (.depart tid c), (left_answer (· = m) (congrArg left h)).symm⟩
  | @switch tid c last r m hp hg h =>
    exact .inr ⟨.call (.switch tid c), (left_answer (· = m) (congrArg left h)).symm⟩
  | @finish tid c last m hp hg h =>
    exact .inr ⟨.call (.finish tid), (left_answer (· = m) (congrArg left h)).symm⟩
  | compute => exact .inl rfl
  | @wake tid => exact .inr ⟨.takePermit tid, rfl⟩
  | @look tid a m hp h => exact .inr ⟨.lookAgain tid, (congrArg left h).symm⟩
  | @plan u =>
    exact .inr ⟨.call (.plan u), (left_answer (· = left (arb.planUnit u w.ledger)) rfl).symm⟩
  | @request c => exact .inr ⟨.call c, rfl⟩
  | @edit tid f => exact .inr ⟨.edit tid f, rfl⟩
  | @think s => exact .inr ⟨.think s, rfl⟩

/-- A crew's run is a run of its ledger. -/
theorem follow_of_run (h : w.run arb mvs = some w') : ∃ es, w'.ledger = arb.follow w.ledger es := by
  refine of_run (P := fun v => ∃ es, v.ledger = arb.follow w.ledger es) ?_ ⟨[], rfl⟩ h
  rintro u v mv ⟨es, hes⟩ hmv
  obtain heq | ⟨e, he⟩ := hmv.reacts
  · exact ⟨es, heq.trans hes⟩
  · exact ⟨es ++ [e], by rw [he, hes, Arbiter.follow, Arbiter.follow, List.foldl_append]; rfl⟩

/-! ## Runs with a move of some kind -/

variable {Q : Crew C σ → Move C σ → Prop}

/-- Some move of the run is of kind `Q` where it is made. -/
def HappensIn (arb : Arbiter C σ) (Q : Crew C σ → Move C σ → Prop) (w : Crew C σ)
    (mvs : List (Move C σ)) : Prop :=
  ∃ pre mv post v, mvs = pre ++ mv :: post ∧ w.run arb pre = some v ∧ Q v mv

theorem not_happensIn_nil : ¬ w.HappensIn arb Q [] := by
  rintro ⟨pre, mv, post, v, hsplit, -⟩
  exact List.append_ne_nil_of_right_ne_nil _ (List.cons_ne_nil _ _) hsplit.symm

theorem happensIn_cons_iff :
    w.HappensIn arb Q (mv :: mvs) ↔ Q w mv ∨ ∃ v, w.next arb mv = some v ∧ v.HappensIn arb Q mvs := by
  constructor
  · rintro ⟨pre, mv', post, v, hsplit, hrun, hr⟩
    cases pre with
    | nil =>
      cases hsplit
      exact .inl (Option.some.inj hrun ▸ hr)
    | cons first pre =>
      cases hsplit
      obtain ⟨u, hmv, hrun'⟩ := of_run_cons hrun
      exact .inr ⟨u, hmv, pre, mv', post, v, rfl, hrun', hr⟩
  · rintro (hr | ⟨u, hmv, pre, mv', post, v, rfl, hrun, hr⟩)
    · exact ⟨[], mv, mvs, w, rfl, rfl, hr⟩
    · exact ⟨mv :: pre, mv', post, v, rfl, by rw [run_cons, hmv]; exact hrun, hr⟩

/-- What happens in the first part of a run happens in the run. -/
theorem HappensIn.append (h : w.HappensIn arb Q mvs) (mvs' : List (Move C σ)) :
    w.HappensIn arb Q (mvs ++ mvs') := by
  obtain ⟨pre, mv, post, v, rfl, hrun, hq⟩ := h
  exact ⟨pre, mv, post ++ mvs', v, by simp, hrun, hq⟩

/-- **What every move keeps that is not of kind `Q`, every run without such a move keeps.** -/
theorem of_run_unless {P : Crew C σ → Prop}
    (hstep : ∀ v v' mv, P v → ¬ Q v mv → Moves arb v mv v' → P v') (hw : P w)
    (hno : ¬ w.HappensIn arb Q mvs) (h : w.run arb mvs = some w') : P w' := by
  induction mvs generalizing w with
  | nil => exact Option.some.inj h ▸ hw
  | cons mv mvs ih =>
    obtain ⟨v, hmv, hrun⟩ := of_run_cons h
    rw [happensIn_cons_iff, not_or] at hno
    exact ih (hstep w v mv hw hno.1 (moves_of_next hmv)) (fun hin => hno.2 ⟨v, hmv, hin⟩) hrun

end Crew

end SoleRunner
