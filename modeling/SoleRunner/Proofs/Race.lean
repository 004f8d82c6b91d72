import SoleRunner.Proofs.Shipment

/-!
# Proofs/Race — the outcome of a race for the executor role does not matter

While the executor role is vacant, any arrival may take it: the one that was called for that, one that
finds an old permit, or a newcomer.  All of them would go on with the runner's code, so that it matters
little which of two comes first.  `Ledger.settled` is what the race does not decide, and sections of two
arrivals leave it the same in both orders: two for the role (`inTurn_of_contends`), one for the role and
one of a thread whose system call was shipped (`inTurn_of_outside`), and two of such threads
(`inTurn_of_both_outside`).  `race_settled` says this of the whole crew, in every state that can be
reached.
-/

namespace SoleRunner

/-- A critical section of an arrival: the first one, or one after a wait. -/
inductive Visit (C : Type) where
  | first (context : C)
  | again

/-- The move of `tid` that is this section. -/
def Visit.move {C σ : Type} (tid : ThreadId) : Visit C → Move C σ
  | .first _ => .arrive tid
  | .again => .look tid

namespace Ledger

variable {C σ : Type} {m : Ledger C σ} {p : Scheduler C σ} {tid u : ThreadId} {v : Visit C} {c : C}

/-- **What a race does not decide**: everything but who is the executor, how often somebody was woken for
nothing, and the log.  The calls of a scheduler are part of it, since its state may be a journal of them
(`Scheduler.journaled`). -/
def settled (m : Ledger C σ) : Ledger C σ :=
  { m with executor := .nobody, stats := { m.stats with spurious := 0 }, log := #[] }

/-- The ledger once `tid` has entered the section, if it is not there to make a system call. -/
def visited (m : Ledger C σ) (p : Scheduler C σ) (tid : ThreadId) : Visit C → Ledger C σ
  | .first c => m.entered p tid c
  | .again => m

/-- The ledger once the section has found the role taken. -/
def missed (m : Ledger C σ) : Visit C → Ledger C σ
  | .first _ => m
  | .again => { m with stats := { m.stats with spurious := m.stats.spurious + 1 } }

/-- The section is for the executor role: it is not one after a wait in which the system call of `tid` was
shipped. -/
def Contends (m : Ledger C σ) (tid : ThreadId) : Visit C → Prop
  | .first _ => m.table.Outside tid
  | .again => m.table.Inside tid

/-! ## What is settled -/

@[simp] theorem settled_ledBy (m : Ledger C σ) (tid : ThreadId) (log : Array Log.Entry) :
    (m.ledBy tid log).settled = m.settled := rfl

@[simp] theorem settled_logged (m : Ledger C σ) (log : Array Log.Entry) :
    (m.logged log).settled = m.settled := rfl

@[simp] theorem settled_withSaved (m : Ledger C σ) (tid : ThreadId) (c : C) :
    (m.withSaved tid c).settled = m.settled.withSaved tid c := rfl

@[simp] theorem settled_visited (m : Ledger C σ) (p : Scheduler C σ) (tid : ThreadId) (v : Visit C) :
    (m.visited p tid v).settled = m.settled.visited p tid v := by cases v <;> rfl

@[simp] theorem settled_missed (m : Ledger C σ) (v : Visit C) : (m.missed v).settled = m.settled := by
  cases v <;> rfl

theorem executor_missed (m : Ledger C σ) (v : Visit C) : (m.missed v).executor = m.executor := by
  cases v <;> rfl

/-! ## Entering the section -/

theorem visited_balanced (hb : m.table.Balanced m.captured m.runner) (hv : m.Contends tid v) :
    (m.visited p tid v).table.Balanced (m.visited p tid v).captured (m.visited p tid v).runner := by
  cases v with
  | first c => exact entered_balanced hb p c hv
  | again => exact hb

theorem executor_visited : (m.visited p tid v).executor = m.executor := by
  cases v <;> rfl

theorem owes_visited : (m.visited p tid v).owesUncapture = m.owesUncapture := by
  cases v <;> rfl

theorem spares_visited (hu : u ≠ tid) : Spares u m (m.visited p tid v) := by
  cases v with
  | first c => exact spares_entered hu
  | again => exact .refl u m

/-- A newcomer is not the runner. -/
theorem Contends.ne_runner (hb : m.table.Balanced m.captured m.runner)
    (hv : m.Contends tid (.first c)) : m.runner ≠ tid := (hb.ne_runner_of_outside hv).symm

theorem ne_nobody_of_contends (hb : m.table.Balanced m.captured m.runner) (hv : m.Contends tid v) :
    tid ≠ .nobody := by
  cases v with
  | first c => exact hb.ne_nobody hv
  | again =>
    obtain ⟨s, hs, -⟩ := hv
    exact hb.ne_nobody hs

/-- It does not matter to a section when the context of another thread, or of the runner, is saved. -/
theorem Contends.withSaved_visited (hb : m.table.Balanced m.captured m.runner)
    (hv : m.Contends tid v) (hu : u ≠ tid ∨ u = m.runner) (n : Ledger C σ) :
    (n.withSaved u c).visited p tid v = (n.visited p tid v).withSaved u c := by
  cases v with
  | first d =>
    refine withSaved_entered (hu.elim id ?_) n p d c
    rintro rfl
    exact hv.ne_runner hb
  | again => rfl

theorem contends_congr {n : Ledger C σ} (h : n.table.state? tid = m.table.state? tid) :
    n.Contends tid v ↔ m.Contends tid v := by
  cases v with
  | first c => exact Table.outside_congr h
  | again => exact Table.inside_congr h

/-! ## The vacant role -/

/-- **The executor role is vacant**, there is somebody whose code is to run, and no uncapture is owed. -/
structure Vacant (m : Ledger C σ) : Prop where
  balanced : m.table.Balanced m.captured m.runner
  executor_eq : m.executor = .nobody
  runner_ne : m.runner ≠ .nobody
  owes_eq : m.owesUncapture = false

/-- A section finds the runner and its context as they were. -/
theorem Vacant.runner_visited (h : m.Vacant) : (m.visited p tid v).runner = m.runner := by
  cases v with
  | first c =>
    exact entered_runner_of_later (Nat.ne_of_gt (h.balanced.captured_pos_of_runner h.runner_ne))
  | again => rfl

theorem Vacant.saved_visited (h : m.Vacant) (hv : m.Contends tid v) :
    (m.visited p tid v).table.saved? m.runner = m.table.saved? m.runner := by
  cases v with
  | first c => exact saved?_entered_of_ne (hv.ne_runner h.balanced)
  | again => rfl

/-- Saving a context leaves the role vacant. -/
theorem Vacant.withSaved (h : m.Vacant) (tid : ThreadId) (c : C) (log : Array Log.Entry) :
    ((m.logged log).withSaved tid c).Vacant where
  balanced := h.balanced.save
  executor_eq := h.executor_eq
  runner_ne := h.runner_ne
  owes_eq := h.owes_eq

end Ledger

namespace Arbiter

open Critical Ledger

variable {C σ : Type} [Context C] {arb : Arbiter C σ} {m : Ledger C σ} {t u : ThreadId} {v : Visit C}
  {x c d : C}

/-- The section itself. -/
def visit (arb : Arbiter C σ) (tid : ThreadId) : Visit C → Critical C σ (Arrival C)
  | .first c => arb.arrive tid c
  | .again => arb.lookAgain tid

/-- **Two sections, one after the other**: that of `t` ends with `a`, and then that of `u` with `b`. -/
def InTurn (arb : Arbiter C σ) (m : Ledger C σ) (t : ThreadId) (v : Visit C) (a : Arrival C)
    (u : ThreadId) (v' : Visit C) (b : Arrival C) (m' : Ledger C σ) : Prop :=
  ∃ n, arb.visit t v m = .ok a n ∧ arb.visit u v' n = .ok b m'

/-! ## One section -/

/-- An arrival that joins while no uncapture is owed takes the role if it is vacant, and waits otherwise. -/
theorem arrive_of_outside (hb : m.table.Balanced m.captured m.runner) (hs : m.table.Outside u)
    (ho : m.owesUncapture = false) :
    arb.arrive u c m = if m.executor = .nobody then
      (do return .resumed (← arb.takeRole u) : Critical C σ (Arrival C)) (m.entered arb.scheduler u c)
      else .ok .waiting (m.entered arb.scheduler u c) := by
  have hs' : (m.withSaved u c).table.state? u = some .uncaptured := Table.state?_save.trans hs
  have ho' : ¬ (m.entered arb.scheduler u c).owesUncapture = true := ho ▸ Bool.false_ne_true
  rw [arrive, bind_of_ok (storeContext_of_some hs), bind_of_ok (stateOf_of_some hs')]
  simp only [bind_of_ok (join_apply hb c hs), bind_of_ok (get_apply _)]
  rw [if_neg ho', bind_of_ok (get_apply _), if_apply]
  rfl

/-- A thread that looks inside the program takes the role if it is vacant, and waits on otherwise. -/
theorem lookAgain_of_inside (hs : m.table.Inside u) :
    arb.lookAgain u m = if m.executor = .nobody then
      (do return .resumed (← arb.takeRole u) : Critical C σ (Arrival C)) m
      else .ok .waiting (m.missed (.again : Visit C)) := by
  obtain ⟨s, hs, hne⟩ := hs
  rw [lookAgain, bind_of_ok (stateOf_of_some hs), if_neg hne, bind_of_ok (get_apply m), if_apply]
  rfl

/-- **A section that is for the role** takes it if it is vacant, and waits otherwise. -/
theorem visit_of_contends (arb : Arbiter C σ) (hb : m.table.Balanced m.captured m.runner)
    (hv : m.Contends u v) (ho : m.owesUncapture = false) :
    arb.visit u v m = if m.executor = .nobody then
      (do return .resumed (← arb.takeRole u) : Critical C σ (Arrival C)) (m.visited arb.scheduler u v)
      else .ok .waiting ((m.visited arb.scheduler u v).missed v) := by
  cases v with
  | first c => exact arrive_of_outside hb hv ho
  | again => exact lookAgain_of_inside hv

/-- Whoever comes first takes the role, to go on with the runner's code. -/
theorem visit_takes (arb : Arbiter C σ) (h : m.Vacant) (hv : m.Contends u v)
    (hx : m.table.saved? m.runner = some x) :
    ∃ log, arb.visit u v m =
      .ok (.resumed ⟨m.runner, .executor, arb.stampExecutor m.runner x⟩)
        (((m.visited arb.scheduler u v).ledBy u log).withSaved m.runner
          (arb.stampExecutor m.runner x)) := by
  have hrun : (m.visited arb.scheduler u v).runner = m.runner := h.runner_visited
  obtain ⟨log, htake⟩ := arb.takeRole_of_saved u (hrun ▸ h.runner_ne)
    (hrun ▸ (h.saved_visited hv).trans hx)
  refine ⟨log, ?_⟩
  rw [arb.visit_of_contends h.balanced hv h.owes_eq, if_pos h.executor_eq, bind_of_ok htake, hrun]
  rfl

/-- Whoever comes later waits. -/
theorem visit_waits (arb : Arbiter C σ) (hb : m.table.Balanced m.captured m.runner)
    (hv : m.Contends u v) (ho : m.owesUncapture = false) (he : m.executor ≠ .nobody) :
    arb.visit u v m = .ok .waiting ((m.visited arb.scheduler u v).missed v) := by
  rw [arb.visit_of_contends hb hv ho, if_neg he]

/-- A thread whose system call was shipped goes on with its own context. -/
theorem visit_releases (arb : Arbiter C σ) (hs : m.table.Outside u) (hd : m.table.saved? u = some d) :
    ∃ log, arb.visit u .again m = .ok (.resumed ⟨u, .uncaptured, arb.stampPlain d⟩)
      ((m.logged log).withSaved u (arb.stampPlain d)) := by
  obtain ⟨log, hnote⟩ : ∃ log, (note .trace s!"[{u}] capture: woken uncaptured" :
      Critical C σ Unit) m = .ok () (m.logged log) := ⟨_, rfl⟩
  have hd' : (m.logged log).table.saved? u = some d := hd
  refine ⟨log, ?_⟩
  rw [visit, lookAgain, bind_of_ok (stateOf_of_some hs), if_pos rfl, bind_of_ok hnote,
    bind_of_ok (resumeOwn_of_saved hd')]
  rfl

/-! ## Two sections -/

/-- **Two sections for the role**: the first one takes it, the other one waits, and it does not matter
which is the first. -/
theorem inTurn_of_contends (arb : Arbiter C σ) (h : m.Vacant) (hne : t ≠ u) (ht : m.Contends t .again)
    (hu : m.Contends u v) :
    ∃ r m₁ m₂, r.tid = m.runner ∧ r.role = .executor ∧
      arb.InTurn m t .again (.resumed r) u v .waiting m₁ ∧
      arb.InTurn m u v (.resumed r) t .again .waiting m₂ ∧
      m₁.executor = t ∧ m₂.executor = u ∧ m₁.settled = m₂.settled := by
  have hb := h.balanced
  obtain ⟨x, hx⟩ := hb.runner_saved h.runner_ne
  -- `t` before `u`
  obtain ⟨l, htake⟩ := arb.visit_takes h ht hx
  have hwait := arb.visit_waits (u := u) (v := v)
    (m := (m.ledBy t l).withSaved m.runner (arb.stampExecutor m.runner x)) hb.save
    ((contends_congr Table.state?_save).mpr hu) h.owes_eq (ne_nobody_of_contends hb ht)
  -- `u` before `t`
  obtain ⟨l', htake'⟩ := arb.visit_takes h hu hx
  have hwait' := arb.visit_waits (u := t) (v := .again)
    (m := ((m.visited arb.scheduler u v).ledBy u l').withSaved m.runner (arb.stampExecutor m.runner x))
    (visited_balanced hb hu).save
    ((contends_congr (Table.state?_save.trans (spares_visited hne).state_eq)).mpr ht)
    (owes_visited.trans h.owes_eq) (ne_nobody_of_contends hb hu)
  refine ⟨_, _, _, rfl, rfl, ⟨_, htake, hwait⟩, ⟨_, htake', hwait'⟩, ?_, executor_missed _ _, ?_⟩
  · rw [executor_missed, executor_visited]
    rfl
  · simp only [settled_missed, settled_visited, settled_withSaved, settled_ledBy]
    exact hu.withSaved_visited hb (.inr rfl) m.settled

/-- **A section for the role, and one to make a system call**: each ends as it would by itself. -/
theorem inTurn_of_outside (arb : Arbiter C σ) (h : m.Vacant) (hne : t ≠ u) (ht : m.table.Outside t)
    (hd : m.table.saved? t = some d) (hu : m.Contends u v) :
    ∃ r m₁ m₂, r.tid = m.runner ∧ r.role = .executor ∧
      arb.InTurn m t .again (.resumed ⟨t, .uncaptured, arb.stampPlain d⟩) u v (.resumed r) m₁ ∧
      arb.InTurn m u v (.resumed r) t .again (.resumed ⟨t, .uncaptured, arb.stampPlain d⟩) m₂ ∧
      m₁.executor = u ∧ m₂.executor = u ∧ m₁.settled = m₂.settled := by
  have hb := h.balanced
  have hrunner : t ≠ m.runner := hb.ne_runner_of_outside ht
  obtain ⟨x, hx⟩ := hb.runner_saved h.runner_ne
  -- `t` before `u`
  obtain ⟨l, hrelease⟩ := arb.visit_releases ht hd
  obtain ⟨l', htake⟩ := arb.visit_takes (h.withSaved t (arb.stampPlain d) l)
    ((contends_congr Table.state?_save).mpr hu) ((saved?_withSaved_of_ne hrunner.symm).trans hx)
  -- `u` before `t`
  obtain ⟨l₁, htake'⟩ := arb.visit_takes h hu hx
  obtain ⟨l₁', hrelease'⟩ := arb.visit_releases (u := t) (d := d)
    (m := ((m.visited arb.scheduler u v).ledBy u l₁).withSaved m.runner (arb.stampExecutor m.runner x))
    ((Table.state?_save.trans (spares_visited hne).state_eq).trans ht)
    (((saved?_withSaved_of_ne hrunner).trans (spares_visited hne).saved_eq).trans hd)
  refine ⟨_, _, _, rfl, rfl, ⟨_, hrelease, htake⟩, ⟨_, htake', hrelease'⟩, rfl, rfl, ?_⟩
  simp only [settled_visited, settled_withSaved, settled_ledBy, settled_logged]
  rw [hu.withSaved_visited hb (.inl hne) m.settled]
  exact withSaved_comm hrunner _ _ _

/-- **Two sections to make a system call**: each ends as it would by itself. -/
theorem inTurn_of_both_outside (arb : Arbiter C σ) (hne : t ≠ u) (ht : m.table.Outside t)
    (hd : m.table.saved? t = some d) (hu : m.table.Outside u) (hc : m.table.saved? u = some c) :
    ∃ m₁ m₂, arb.InTurn m t .again (.resumed ⟨t, .uncaptured, arb.stampPlain d⟩) u .again
        (.resumed ⟨u, .uncaptured, arb.stampPlain c⟩) m₁ ∧
      arb.InTurn m u .again (.resumed ⟨u, .uncaptured, arb.stampPlain c⟩) t .again
        (.resumed ⟨t, .uncaptured, arb.stampPlain d⟩) m₂ ∧
      m₁.executor = m.executor ∧ m₂.executor = m.executor ∧ m₁.settled = m₂.settled := by
  obtain ⟨l, hfirst⟩ := arb.visit_releases ht hd
  obtain ⟨l', hsecond⟩ := arb.visit_releases
    (m := (m.logged l).withSaved t (arb.stampPlain d)) (outside_withSaved.mpr hu)
    ((saved?_withSaved_of_ne hne.symm).trans hc)
  obtain ⟨l₁, hfirst'⟩ := arb.visit_releases hu hc
  obtain ⟨l₁', hsecond'⟩ := arb.visit_releases
    (m := (m.logged l₁).withSaved u (arb.stampPlain c)) (outside_withSaved.mpr ht)
    ((saved?_withSaved_of_ne hne).trans hd)
  refine ⟨_, _, ⟨_, hfirst, hsecond⟩, ⟨_, hfirst', hsecond'⟩, rfl, rfl, ?_⟩
  simp only [settled_withSaved, settled_logged]
  exact withSaved_comm hne _ _ _

end Arbiter

namespace Crew

open Critical Arbiter Ledger

variable {C σ : Type} [Context C] {arb : Arbiter C σ} {w w' : Crew C σ} {m : Ledger C σ}
  {t u : ThreadId} {v v' : Visit C} {a b : Arrival C} {c d : C}

/-- **`u` is about to enter this section** of its arrival: it may arrive, or its wait has returned. -/
def Enters (arb : Arbiter C σ) (w : Crew C σ) (u : ThreadId) : Visit C → Prop
  | .first c => ∃ last, w.place u = .outside c last ∧ Context.reg c arb.roleReg = 0
  | .again => w.place u = .inside true

theorem Enters.next (hu : w.Enters arb u v) (h : arb.visit u v w.ledger = .ok a m) :
    w.next arb (v.move u) = some (w.put m u a.place) := by
  cases v with
  | first c =>
    obtain ⟨last, hp, hg⟩ := hu
    have hguard : entryGuarded (Context.reg c arb.roleReg) = true := beq_iff_eq.mpr hg
    rw [Visit.move, Crew.next, calls, hp]
    simp only [hguard, if_true]
    exact congrArg (w.handled u Arrival.place) h
  | again =>
    have hp : w.place u = .inside true := hu
    rw [Visit.move, Crew.next]
    simp only [hp]
    exact congrArg (w.handled u Arrival.place) h

/-- Two sections of different threads make a run of two moves. -/
theorem Enters.run (hne : t ≠ u) (ht : w.Enters arb t v) (hu : w.Enters arb u v')
    (h : arb.InTurn w.ledger t v a u v' b m) :
    w.run arb [v.move t, v'.move u] = some ((w.put m t a.place).put m u b.place) := by
  obtain ⟨n, ha, hb⟩ := h
  have hu' : (w.put n t a.place).Enters arb u v' := by
    cases v' with
    | first c =>
      obtain ⟨last, hp, hg⟩ := hu
      exact ⟨last, (place_put_of_ne hne.symm).trans hp, hg⟩
    | again => exact (place_put_of_ne hne.symm).trans hu
  rw [run_cons, ht.next ha, Option.bind_some, run_cons, hu'.next hb]
  rfl

omit [Context C] in
/-- Where two threads are does not depend on which of them got there first. -/
theorem place_put_comm (hne : t ≠ u) (m n : Ledger C σ) (p q : Place C) (x : ThreadId) :
    ((w.put m t p).put m u q).place x = ((w.put n u q).put n t p).place x := by
  rcases eq_or_ne x t with rfl | ht
  · rw [place_put_of_ne hne, place_put_self, place_put_self]
  rcases eq_or_ne x u with rfl | hu
  · rw [place_put_self, place_put_of_ne ht, place_put_self]
  · rw [place_put_of_ne hu, place_put_of_ne ht, place_put_of_ne ht, place_put_of_ne hu]

/-! ## How a race ends -/

/-- **One of those who contend has won**: it is the executor and goes on with `r`, and the others wait. -/
structure Won (w : Crew C σ) (contends : ThreadId → Prop) (r : Resume C) : Prop where
  winner : contends w.ledger.executor
  place_winner : w.place w.ledger.executor = r.place
  waits : ∀ x, contends x → x ≠ w.ledger.executor → w.place x = .inside false

/-- **The race has ended in the same way** in `w₁` and in `w₂`: in everything that it does not decide, and
in the answer of the winner, whoever that is. -/
structure Agree (runner : ThreadId) (contends : ThreadId → Prop) (w₁ w₂ : Crew C σ) : Prop where
  settled : w₁.ledger.settled = w₂.ledger.settled
  others : ∀ x, ¬ contends x → w₁.place x = w₂.place x
  vacant : (∀ x, ¬ contends x) → w₁.ledger.executor = .nobody ∧ w₂.ledger.executor = .nobody
  won : (∃ x, contends x) →
    ∃ r, r.tid = runner ∧ r.role = .executor ∧ w₁.Won contends r ∧ w₂.Won contends r

variable {runner : ThreadId} {contends : ThreadId → Prop} {w₁ w₂ : Crew C σ} {r : Resume C}

omit [Context C] in
theorem Agree.symm (h : Agree runner contends w₁ w₂) : Agree runner contends w₂ w₁ where
  settled := h.settled.symm
  others x hx := (h.others x hx).symm
  vacant hx := (h.vacant hx).symm
  won hx := by
    obtain ⟨r, htid, hrole, h₁, h₂⟩ := h.won hx
    exact ⟨r, htid, hrole, h₂, h₁⟩

omit [Context C] in
/-- One of two that contend has won, and the other waits. -/
theorem won_of_two (hc : ∀ x, contends x ↔ x = t ∨ x = u) (he : w.ledger.executor = t)
    (ht : w.place t = r.place) (hu : w.place u = .inside false) : w.Won contends r where
  winner := (hc _).mpr (.inl he)
  place_winner := he ▸ ht
  waits x hx hother := by
    rw [he] at hother
    obtain rfl := ((hc x).mp hx).resolve_left hother
    exact hu

omit [Context C] in
/-- The only one that contends has won. -/
theorem won_of_one (hc : ∀ x, contends x ↔ x = u) (he : w.ledger.executor = u)
    (hu : w.place u = r.place) : w.Won contends r where
  winner := (hc _).mpr he
  place_winner := he ▸ hu
  waits x hx hother := absurd ((hc x).mp hx) (he ▸ hother)

/-- Two threads that contend. -/
theorem agree_of_contends (h : w.ledger.Vacant) (hne : t ≠ u) (ht : w.Enters arb t .again)
    (hu : w.Enters arb u v) (hct : w.ledger.Contends t .again) (hcu : w.ledger.Contends u v)
    (hc : ∀ x, contends x ↔ x = t ∨ x = u) :
    ∃ w₁ w₂, w.run arb [.look t, v.move u] = some w₁ ∧ w.run arb [v.move u, .look t] = some w₂ ∧
      Agree w.ledger.runner contends w₁ w₂ := by
  obtain ⟨r, m₁, m₂, htid, hrole, h₁, h₂, he₁, he₂, hsettled⟩ := arb.inTurn_of_contends h hne hct hcu
  refine ⟨_, _, ht.run hne hu h₁, hu.run hne.symm ht h₂, hsettled, fun x hx => ?_, fun hnone => ?_,
    fun _ => ⟨r, htid, hrole, won_of_two hc he₁ ?_ (place_put_self ..),
      won_of_two (fun x => (hc x).trans or_comm) he₂ ?_ (place_put_self ..)⟩⟩
  · obtain ⟨hxt, hxu⟩ := not_or.mp ((not_congr (hc x)).mp hx)
    rw [place_put_of_ne hxu, place_put_of_ne hxt, place_put_of_ne hxt, place_put_of_ne hxu]
  · exact absurd ((hc t).mpr (.inl rfl)) (hnone t)
  · exact (place_put_of_ne hne).trans (place_put_self ..)
  · exact (place_put_of_ne hne.symm).trans (place_put_self ..)

/-- A thread whose system call was shipped, and one that contends. -/
theorem agree_of_shipped (h : w.ledger.Vacant) (hne : t ≠ u) (ht : w.Enters arb t .again)
    (hu : w.Enters arb u v) (hs : w.Shipped t c) (hcu : w.ledger.Contends u v)
    (hc : ∀ x, contends x ↔ x = u) :
    ∃ w₁ w₂, w.run arb [.look t, v.move u] = some w₁ ∧ w.run arb [v.move u, .look t] = some w₂ ∧
      Agree w.ledger.runner contends w₁ w₂ := by
  obtain ⟨r, m₁, m₂, htid, hrole, h₁, h₂, he₁, he₂, hsettled⟩ :=
    arb.inTurn_of_outside h hne hs.outside hs.saved hcu
  refine ⟨_, _, ht.run hne hu h₁, hu.run hne.symm ht h₂, hsettled,
    fun x _ => place_put_comm hne m₁ m₂ _ _ x, fun hnone => ?_,
    fun _ => ⟨r, htid, hrole, won_of_one hc he₁ (place_put_self ..), won_of_one hc he₂ ?_⟩⟩
  · exact absurd ((hc u).mpr rfl) (hnone u)
  · exact (place_put_of_ne hne.symm).trans (place_put_self ..)

/-- Two threads whose system calls were shipped. -/
theorem agree_of_both_shipped (h : w.ledger.Vacant) (hne : t ≠ u) (ht : w.Enters arb t .again)
    (hu : w.Enters arb u .again) (hst : w.Shipped t c) (hsu : w.Shipped u d)
    (hc : ∀ x, ¬ contends x) :
    ∃ w₁ w₂, w.run arb [.look t, .look u] = some w₁ ∧ w.run arb [.look u, .look t] = some w₂ ∧
      Agree w.ledger.runner contends w₁ w₂ := by
  obtain ⟨m₁, m₂, h₁, h₂, he₁, he₂, hsettled⟩ :=
    arb.inTurn_of_both_outside hne hst.outside hst.saved hsu.outside hsu.saved
  refine ⟨_, _, ht.run hne hu h₁, hu.run hne.symm ht h₂, hsettled,
    fun x _ => place_put_comm hne m₁ m₂ _ _ x,
    fun _ => ⟨he₁.trans h.executor_eq, he₂.trans h.executor_eq⟩, fun hsome => ?_⟩
  obtain ⟨x, hx⟩ := hsome
  exact absurd hx (hc x)

/-! ## Every race -/

/-- Those of `t`, whose wait has returned, and of `u` whose sections are for the role. -/
def Rivals (w : Crew C σ) (t u : ThreadId) (v : Visit C) (x : ThreadId) : Prop :=
  x = t ∧ w.ledger.Contends t (.again : Visit C) ∨ x = u ∧ w.ledger.Contends u v

/-- A thread that looks again contends, or its system call was shipped. -/
theorem Accounted.contends_or_shipped (h : w.Accounted) (hu : w.Enters arb u .again) :
    w.ledger.Contends u (.again : Visit C) ∨ ∃ c, w.Shipped u c := h u true hu

omit [Context C] in
theorem Shipped.not_contends (h : w.Shipped u c) : ¬ w.ledger.Contends u (.again : Visit C) :=
  h.outside.not_inside

variable {scheduler : Scheduler C σ} {initial : σ} {config : Config} {setup setup' : Setup C σ}
  {mvs : List (Move C σ)}

/-- **It does not matter who wins a race for the executor role.**  In every state that a crew of a new
arbiter can reach, while the role is vacant, there is a runner and no uncapture is owed: the sections of
a thread `t` whose wait has returned and of another such thread or a newcomer `u` can be made in both
orders, and the two outcomes agree. -/
theorem race_settled (h : create scheduler initial config setup = .ok (arb, m) setup')
    (hrun : (new m).run arb mvs = some w) (he : w.ledger.executor = .nobody)
    (hr : w.ledger.runner ≠ .nobody) (ho : w.ledger.owesUncapture = false) (hne : t ≠ u)
    (ht : w.Enters arb t .again) (hu : w.Enters arb u v)
    (hout : ∀ c, v = .first c → w.ledger.table.Outside u) :
    ∃ w₁ w₂, w.run arb [.look t, v.move u] = some w₁ ∧ w.run arb [v.move u, .look t] = some w₂ ∧
      Agree w.ledger.runner (w.Rivals t u v) w₁ w₂ := by
  obtain ⟨hw, hacc⟩ := accounted_of_run h hrun
  have hvacant : w.ledger.Vacant := ⟨hw.sound.balanced, he, hr, ho⟩
  have hcu : w.ledger.Contends u v ∨ v = .again ∧ ∃ d, w.Shipped u d := by
    cases v with
    | first c => exact .inl (hout c rfl)
    | again => exact (hacc.contends_or_shipped hu).imp_right fun hs => ⟨rfl, hs⟩
  obtain hct | ⟨c, hst⟩ := hacc.contends_or_shipped ht
  · obtain hcu | ⟨rfl, d, hsu⟩ := hcu
    · refine agree_of_contends hvacant hne ht hu hct hcu fun x => ?_
      exact or_congr (and_iff_left hct) (and_iff_left hcu)
    · have hc (x : ThreadId) : w.Rivals t u .again x ↔ x = t :=
        (or_iff_left fun hx => hsu.not_contends hx.2).trans (and_iff_left hct)
      obtain ⟨w₂, w₁, h₂, h₁, hagree⟩ := agree_of_shipped hvacant hne.symm hu ht hsu hct hc
      exact ⟨w₁, w₂, h₁, h₂, hagree.symm⟩
  · have hnot : ¬ w.ledger.Contends t (.again : Visit C) := hst.not_contends
    obtain hcu | ⟨rfl, d, hsu⟩ := hcu
    · refine agree_of_shipped hvacant hne ht hu hst hcu fun x => ?_
      exact (or_iff_right fun hx => hnot hx.2).trans (and_iff_left hcu)
    · refine agree_of_both_shipped hvacant hne ht hu hst hsu fun x => ?_
      exact not_or.mpr ⟨fun hx => hnot hx.2, fun hx => hsu.not_contends hx.2⟩

/-- The first of two threads leaves the program and calls the second one to run, and is back before that
one has looked: each of the two may be the executor, of the second one's code. -/
theorem race_settled_rotation :
    ∃ (w w₁ w₂ : Crew Cursor Rotation) (c : Cursor),
      (new (.fresh 2 {})).run twoSlots [.start ⟨0⟩ (.start ⟨0⟩), .arrive ⟨0⟩, .start ⟨1⟩ (.start ⟨1⟩),
        .arrive ⟨1⟩, .depart ⟨0⟩, .wake ⟨1⟩] = some w ∧
      w.ledger.Vacant ∧ w.Enters twoSlots ⟨1⟩ .again ∧ w.Enters twoSlots ⟨0⟩ (.first c) ∧
      w.run twoSlots [.look ⟨1⟩, .arrive ⟨0⟩] = some w₁ ∧
      w.run twoSlots [.arrive ⟨0⟩, .look ⟨1⟩] = some w₂ ∧
      Agree ⟨1⟩ (w.Rivals ⟨1⟩ ⟨0⟩ (.first c)) w₁ w₂ ∧
      w₁.ledger.executor = ⟨1⟩ ∧ w₂.ledger.executor = ⟨0⟩ := by
  obtain ⟨setup, h⟩ := create_twoSlots
  obtain ⟨w, v₁, v₂, c, last, hw, he, hr, ho, hwoken, hback, hg, hout, hv₁, hv₂, he₁, he₂⟩ :
      ∃ (w v₁ v₂ : Crew Cursor Rotation) (c : Cursor) (last : Option (Resume Cursor)),
        (new (.fresh 2 {})).run twoSlots [.start ⟨0⟩ (.start ⟨0⟩), .arrive ⟨0⟩,
          .start ⟨1⟩ (.start ⟨1⟩), .arrive ⟨1⟩, .depart ⟨0⟩, .wake ⟨1⟩] = some w ∧
        w.ledger.executor = .nobody ∧ w.ledger.runner = ⟨1⟩ ∧ w.ledger.owesUncapture = false ∧
        w.place ⟨1⟩ = .inside true ∧ w.place ⟨0⟩ = .outside c last ∧
        Context.reg c twoSlots.roleReg = 0 ∧ w.ledger.table.Outside ⟨0⟩ ∧
        w.run twoSlots [.look ⟨1⟩, .arrive ⟨0⟩] = some v₁ ∧
        w.run twoSlots [.arrive ⟨0⟩, .look ⟨1⟩] = some v₂ ∧
        v₁.ledger.executor = ⟨1⟩ ∧ v₂.ledger.executor = ⟨0⟩ :=
    ⟨_, _, _, _, _, rfl, rfl, rfl, rfl, rfl, rfl, rfl, rfl, rfl, rfl, rfl, rfl⟩
  have hne : w.ledger.runner ≠ .nobody := hr ▸ (by decide)
  have hsound := (stationed_of_run h hw).sound.balanced
  obtain ⟨w₁, w₂, h₁, h₂, hagree⟩ := race_settled h hw he hne ho (by decide) hwoken
    (v := .first c) ⟨last, hback, hg⟩ fun _ _ => hout
  cases hv₁.symm.trans h₁
  cases hv₂.symm.trans h₂
  exact ⟨w, v₁, v₂, c, hw, ⟨hsound, he, hne, ho⟩, hwoken, ⟨last, hback, hg⟩, h₁, h₂, hr ▸ hagree,
    he₁, he₂⟩

end Crew

end SoleRunner
