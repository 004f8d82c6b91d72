import SoleRunner.Proofs.Alike

/-!
# Proofs/Answers — alike ledgers answer alike

Every section of an arbiter is `Blind`, and an arrival makes the thread known whose context it brings.  So
two arbiters whose ledgers are alike answer all events in the same way, one after another, as long as
nobody looks again who is neither known nor has arrived in these events (`Arbiter.answers_eq_of_known`).
-/

namespace SoleRunner

/-- What a section answers, without the ledger that it leaves. -/
def Critical.answer {C σ α : Type} : EStateM.Result Fault (Ledger C σ) α → Except Fault α
  | .ok a _ => .ok a
  | .error e _ => .error e

/-- Two outcomes that agree leave alike ledgers and answer the same. -/
theorem Critical.Agree.parts {C σ α : Type} {K : ThreadId → Prop}
    {r r' : EStateM.Result Fault (Ledger C σ) α} (h : Agree K r r') :
    (left r).Alike K (left r') ∧ answer r = answer r' := by
  cases h with
  | ok a h | error e h => exact ⟨h, rfl⟩

/-- **What the caller of an event learns**; nothing if there is none. -/
def Arbiter.answer {C σ : Type} [Context C] (arb : Arbiter C σ) (m : Ledger C σ) :
    Event C σ → Option (Except Fault (Reply C))
  | .call call => some (Critical.answer (arb.perform call m))
  | .lookAgain tid => some ((Critical.answer (arb.lookAgain tid m)).map Arrival.reply)
  | .edit tid f =>
    some ((Critical.answer (editContext tid (fun c => ((), f c)) m)).map fun _ => .done)
  | .takePermit _ | .think _ => none

/-- What the callers of events learn, one after another. -/
def Arbiter.answers {C σ : Type} [Context C] (arb : Arbiter C σ) (m : Ledger C σ) :
    List (Event C σ) → List (Option (Except Fault (Reply C)))
  | [] => []
  | e :: es => arb.answer m e :: arb.answers (arb.react m e) es

/-- The threads in `K`, and who arrives. -/
def Event.meets {C σ : Type} (K : ThreadId → Prop) : Event C σ → ThreadId → Prop
  | .call (.arrive tid _), u => K u ∨ u = tid
  | _, u => K u

/-- Nobody is forgotten. -/
theorem Event.meets_of_known {C σ : Type} {K : ThreadId → Prop} {u : ThreadId} (hu : K u)
    (e : Event C σ) : e.meets K u := by
  unfold Event.meets
  split
  · exact .inl hu
  · exact hu

namespace Arbiter

open Critical Ledger

variable {C σ α : Type} {K : ThreadId → Prop} {m n : Ledger C σ} {tid : ThreadId} {c : C}

/-! ## The parts of a section -/

theorem blind_noteHandOff (arb : Arbiter C σ) (text : String) : Blind K (arb.noteHandOff text) :=
  blind_ite (blind_note _ _) (blind_pure ())

theorem blind_wake (arb : Arbiter C σ) (tid : ThreadId) : Blind K (arb.wake tid) :=
  (arb.blind_noteHandOff _).bind fun _ => blind_post tid

/-- Alike tables know the same threads. -/
theorem check_eq {t t' : Table C} (h : t.Alike K t') (tid : ThreadId) : t.check tid = t'.check tid := by
  have heq := h.state?_eq tid
  cases hs : t'.state? tid with
  | none => rw [Table.check_of_none (heq.trans hs), Table.check_of_none hs, h.capacity_eq]
  | some s => rw [Table.check_of_some (heq.trans hs), Table.check_of_some hs]

/-- Alike tables accept the same choices. -/
theorem checkChoice_eq {t t' : Table C} (h : t.Alike K t') (next : ThreadId) :
    checkChoice t next = checkChoice t' next := by
  have hstate : t.state next = t'.state next := by
    have heq := h.state?_eq next
    cases hs : t'.state? next with
    | none => rw [Table.state_of_none (heq.trans hs), Table.state_of_none hs, h.capacity_eq]
    | some s => rw [Table.state_of_some (heq.trans hs), Table.state_of_some hs]
  rw [checkChoice, checkChoice, Table.contains, Table.contains, hstate, h.capacity_eq]

/-- The scheduler is shown the runner's context and its own state, which are the same on both sides. -/
theorem blind_askScheduler (arb : Arbiter C σ) : Blind K arb.askScheduler := by
  refine blind_get fun m n h => ?_
  have hr := h.runner_known
  rw [← h.runner_eq, ← h.schedulerState_eq]
  refine Blind.bind (blind_contextOf hr) (fun c => ?_) m n h
  obtain ⟨next, d, s⟩ := arb.scheduler.choose m.runner c m.schedulerState
  exact (blind_modifyContext hr _).bind fun _ => (blind_tell _).bind fun _ => blind_pure next

/-- A choice that is accepted is an idle thread, and so a known one. -/
theorem blind_replaceRunner (arb : Arbiter C σ) : Blind K arb.replaceRunner := by
  refine blind_get fun m n h => ?_
  rw [← h.runner_eq]
  refine Blind.bind arb.blind_askScheduler (fun next => blind_get fun m' n' h' => ?_) m n h
  rw [checkChoice_eq h'.table]
  cases hcheck : checkChoice n'.table next with
  | error e => exact .error e h'
  | ok =>
    have hidle := (h'.table.state?_eq next).trans (idle_of_checkChoice hcheck)
    have hnext : K next := h'.table.known next ⟨_, hidle, by decide⟩
    refine Blind.bind (blind_pure ()) (fun _ => blind_get fun m n h => ?_) m' n' h'
    rw [h.captured_eq]
    refine Blind.bind (blind_expect _ _) (fun _ => blind_get fun m n h => ?_) m n h
    rw [h.captured_eq]
    refine Blind.bind (blind_setCaptured _) (fun _ => ?_) m n h
    refine (blind_moveState (by decide)).bind fun _ => (blind_setRunner hnext).bind fun _ => ?_
    exact (blind_moveState (by decide)).bind fun _ => blind_tally _

variable [Context C]

omit [Context C] in
/-- To resume a thread reads its context. -/
theorem blind_resumeStamped (htid : K tid) (role : Role) (stamp : C → C) :
    Blind K (resumeStamped tid role stamp : Critical C σ (Resume C)) :=
  (blind_modifyContext htid _).bind fun _ => (blind_contextOf htid).bind fun _ => blind_pure _

/-- The runner is always known. -/
theorem blind_resumeRunner (arb : Arbiter C σ) : Blind K arb.resumeRunner := by
  refine blind_get fun m n h => ?_
  have hr := h.runner_known
  rw [← h.runner_eq]
  exact Blind.bind (blind_expect _ _) (fun _ => blind_resumeStamped hr _ _) m n h

theorem blind_resumeOwn (arb : Arbiter C σ) (htid : K tid) : Blind K (arb.resumeOwn tid) :=
  blind_resumeStamped htid _ _

/-! ## The sections -/

/-- An executor that comes back from a system call alone. -/
theorem blind_keepRole (arb : Arbiter C σ) (tid : ThreadId) : Blind K (arb.keepRole tid) := by
  refine blind_get fun m n h => ?_
  rw [h.executor_eq]
  refine Blind.bind (blind_expect _ _) (fun _ => blind_get fun m n h => ?_) m n h
  rw [h.runner_eq]
  refine Blind.bind (blind_expect _ _) (fun _ => blind_get fun m n h => ?_) m n h
  rw [h.captured_eq]
  refine Blind.bind (blind_expect _ _) (fun _ => ?_) m n h
  exact (blind_setOwed _).bind fun _ => (blind_note _ _).bind fun _ => arb.blind_resumeRunner

omit [Context C] in
/-- A thread that joins must be known, as it is inside from then on. -/
theorem blind_join (arb : Arbiter C σ) (htid : K tid) : Blind K (arb.join tid) := by
  refine blind_get fun m n h => ?_
  rw [h.captured_eq]
  refine Blind.bind (blind_tell _) (fun _ => blind_get fun m' n' h' => ?_) m n h
  rw [h'.captured_eq]
  refine Blind.bind (blind_setCaptured _) (fun _ => ?_) m' n' h'
  refine (blind_setState (.inr htid)).bind fun _ => (blind_tally _).bind fun _ => ?_
  refine blind_ite (blind_get fun m n h => ?_) (blind_pure ())
  rw [h.runner_eq]
  refine Blind.bind (blind_expect _ _) (fun _ => ?_) m n h
  exact (blind_setState (.inr htid)).bind fun _ => blind_setRunner htid

omit [Context C] in
/-- The delayed uncapture, which a thread that joins pays for the executor. -/
theorem blind_payUncapture (arb : Arbiter C σ) (tid : ThreadId) : Blind K (arb.payUncapture tid) := by
  refine blind_get fun m n h => ?_
  rw [h.runner_eq]
  refine blind_get (fun m n h => ?_) m n h
  rw [h.executor_eq]
  refine Blind.bind (blind_expect _ _) (fun _ => blind_get fun m n h => ?_) m n h
  rw [h.captured_eq]
  refine Blind.bind (blind_expect _ _) (fun _ => ?_) m n h
  refine arb.blind_replaceRunner.bind fun _ => (blind_setExecutor _).bind fun _ => ?_
  exact (blind_setOwed _).bind fun _ => (blind_tally _).bind fun _ => arb.blind_noteHandOff _

/-- Whoever takes the vacant role goes on with the runner's context, whose thread is known. -/
theorem blind_takeRole (arb : Arbiter C σ) (tid : ThreadId) : Blind K (arb.takeRole tid) := by
  refine (blind_setExecutor tid).bind fun _ => blind_get fun m n h => ?_
  rw [h.runner_eq]
  exact Blind.bind (arb.blind_noteHandOff _) (fun _ => arb.blind_resumeRunner) m n h

/-- Whoever arrives is known from then on. -/
theorem arrive_agree (arb : Arbiter C σ) (h : m.Alike K n) (tid : ThreadId) (c : C) :
    Agree (fun u => K u ∨ u = tid) (arb.arrive tid c m) (arb.arrive tid c n) := by
  refine (storeContext_agree h tid c).bind fun _ => blind_stateOf fun s _ => ?_
  cases s with
  | running => exact (arb.blind_keepRole tid).bind fun _ => blind_pure _
  | idle | blocked => exact blind_throw _
  | uncaptured =>
    have hrole : Blind (fun u => K u ∨ u = tid) (do
        if (← get).executor = .nobody then return .resumed (← arb.takeRole tid)
        else return .waiting : Critical C σ (Arrival C)) := by
      refine blind_get fun m n h => ?_
      rw [h.executor_eq]
      exact blind_ite ((arb.blind_takeRole tid).bind fun _ => blind_pure _) (blind_pure _) m n h
    refine (arb.blind_join (.inr rfl)).bind fun _ => blind_get fun m n h => ?_
    rw [h.owes_eq]
    exact blind_ite ((arb.blind_payUncapture tid).bind fun _ => hrole) hrole m n h

/-- Whoever looks again may be resumed with its own context, and so has to be known. -/
theorem blind_lookAgain (arb : Arbiter C σ) (htid : K tid) : Blind K (arb.lookAgain tid) := by
  refine blind_stateOf fun s _ => blind_ite ?_ (blind_get fun m n h => ?_)
  · exact (blind_note _ _).bind fun _ => (arb.blind_resumeOwn htid).bind fun _ => blind_pure _
  · rw [h.executor_eq]
    refine blind_ite ?_ ?_ m n h
    · exact (arb.blind_takeRole tid).bind fun _ => blind_pure _
    · exact (blind_tally _).bind fun _ => blind_pure _

/-- An executor that leaves a system call to its own thread. -/
theorem blind_ship (arb : Arbiter C σ) (tid owner : ThreadId) : Blind K (arb.ship tid owner) := by
  refine blind_get fun m n h => ?_
  rw [h.captured_eq]
  refine Blind.bind (blind_expect _ _) (fun _ => ?_) m n h
  refine arb.blind_replaceRunner.bind fun _ => (arb.blind_wake owner).bind fun _ => ?_
  refine (blind_tally _).bind fun _ => blind_get fun m n h => ?_
  rw [h.runner_eq]
  exact Blind.bind (blind_note _ _) (fun _ => arb.blind_resumeRunner) m n h

omit [Context C] in
/-- An executor that leaves for a system call of its own, others being captured. -/
theorem blind_handOver (arb : Arbiter C σ) (tid : ThreadId) : Blind K (arb.handOver tid) := by
  refine arb.blind_replaceRunner.bind fun _ => (blind_setExecutor _).bind fun _ =>
    blind_get fun m n h => ?_
  rw [h.runner_eq]
  exact Blind.bind (arb.blind_wake _) (fun _ => arb.blind_noteHandOff _) m n h

omit [Context C] in
/-- An executor that leaves alone. -/
theorem blind_owe (tid : ThreadId) : Blind K (owe tid : Critical C σ Unit) := by
  refine blind_get fun m n h => ?_
  rw [h.owes_eq]
  exact Blind.bind (blind_expect _ _) (fun _ => (blind_setOwed _).bind fun _ => blind_note _ _) m n h

/-- **A departure is blind**: the context that it stores is the runner's, who is known. -/
theorem blind_depart (arb : Arbiter C σ) (tid : ThreadId) (c : C) : Blind K (arb.depart tid c) := by
  refine blind_get fun m n h => ?_
  rw [h.executor_eq]
  refine Blind.bind (blind_expect _ _) (fun _ => blind_get fun m n h => ?_) m n h
  have hr := h.runner_known
  rw [← h.runner_eq]
  refine Blind.bind (blind_storeContext _ _) (fun _ => ?_) m n h
  by_cases hown : m.runner = tid
  · rw [if_neg (not_not_intro hown)]
    refine blind_get fun m n h => ?_
    rw [h.captured_eq]
    refine blind_ite ?_ ?_ m n h
    · exact (arb.blind_handOver tid).bind fun _ => arb.blind_resumeOwn (hown ▸ hr)
    · exact (blind_owe tid).bind fun _ => arb.blind_resumeOwn (hown ▸ hr)
  · rw [if_pos hown]
    exact arb.blind_ship tid _

/-- What a switch is refused for is the same on both sides. -/
theorem checkSwitch_eq (arb : Arbiter C σ) (h : m.Alike K n) (tid : ThreadId) (c : C) :
    arb.checkSwitch m tid c = arb.checkSwitch n tid c := by
  rw [checkSwitch, checkSwitch, h.executor_eq, h.armed_eq, h.runner_eq, checkChoice_eq h.table]

omit [Context C] in
/-- The runner that is switched from, blocked or idle. -/
theorem blind_leaveRunner (old : ThreadId) : Blind K (leaveRunner old : Critical C σ Unit) := by
  refine blind_get fun m n h => ?_
  rw [h.armed_eq]
  refine blind_ite ?_ (blind_moveState (by decide)) m n h
  refine (blind_moveState (by decide)).bind fun _ => blind_get fun m n h => ?_
  rw [h.captured_eq]
  refine Blind.bind (blind_expect _ _) (fun _ => blind_get fun m n h => ?_) m n h
  rw [h.captured_eq]
  refine Blind.bind (blind_setCaptured _) (fun _ => ?_) m n h
  exact (blind_setArmed _).bind fun _ => blind_tally _

/-- **A switch is blind**: it goes to an idle thread, which is known. -/
theorem blind_switch (arb : Arbiter C σ) (tid : ThreadId) (c : C) : Blind K (arb.switch tid c) := by
  refine blind_get fun m n h => ?_
  rw [arb.checkSwitch_eq h]
  cases hcheck : arb.checkSwitch n tid c with
  | error e => exact .error e h
  | ok =>
    have hidle := (h.table.state?_eq _).trans (of_checkSwitch hcheck).2.2.2
    have hnext : K (arb.decision c) := h.table.known _ ⟨_, hidle, by decide⟩
    refine Blind.bind (blind_pure ()) (fun _ => blind_get fun m n h => ?_) m n h
    rw [h.runner_eq]
    refine Blind.bind (blind_storeContext _ _) (fun _ => ?_) m n h
    refine (blind_leaveRunner _).bind fun _ => (blind_setRunner hnext).bind fun _ => ?_
    refine (blind_moveState (by decide)).bind fun _ => (blind_tally _).bind fun _ => ?_
    exact (blind_note _ _).bind fun _ => arb.blind_resumeRunner

/-- **A start is blind**, of any thread: it reads a state and no context. -/
theorem blind_startThread (arb : Arbiter C σ) (tid : ThreadId) (c : C) :
    Blind K (arb.startThread tid c) := by
  refine blind_get fun m n h => ?_
  rw [check_eq h.table]
  refine Blind.bind (blind_ofExcept _) (fun _ => ?_) m n h
  refine (arb.blind_noteHandOff _).bind fun _ => (blind_tell _).bind fun _ => ?_
  refine (blind_tally _).bind fun _ => blind_stateOf fun s _ => ?_
  exact (blind_expect _ _).bind fun _ => blind_pure _

omit [Context C] in
/-- Its exit makes nobody the runner, whose name counts as known. -/
theorem blind_exitRunning (tid : ThreadId) : Blind K (exitRunning tid : Critical C σ Unit) := by
  refine blind_get fun m n h => ?_
  rw [h.captured_eq]
  refine Blind.bind (blind_expect _ _) (fun _ => blind_get fun m n h => ?_) m n h
  rw [h.executor_eq]
  have hnobody := h.nobody_known
  refine Blind.bind (blind_expect _ _) (fun _ => ?_) m n h
  refine (blind_setState (.inl rfl)).bind fun _ => (blind_setCaptured 0).bind fun _ => ?_
  exact (blind_setOwed false).bind fun _ => (blind_setRunner hnobody).bind fun _ => blind_setExecutor _

omit [Context C] in
/-- **An exit is blind**, of any thread. -/
theorem blind_endThread (arb : Arbiter C σ) (tid : ThreadId) : Blind K (arb.endThread tid) := by
  have htell : Blind K (do
      tell (arb.scheduler.ended tid)
      tally fun s => { s with ends := s.ends + 1 } : Critical C σ Unit) :=
    (blind_tell _).bind fun _ => blind_tally _
  refine (arb.blind_noteHandOff _).bind fun _ => blind_stateOf fun s _ => ?_
  cases s with
  | running => exact (blind_exitRunning tid).bind fun _ => htell
  | uncaptured => exact htell
  | idle | blocked => exact blind_throw _

omit [Context C] in
theorem blind_armBlock : Blind K (armBlock : Critical C σ Unit) := by
  refine blind_get fun m n h => ?_
  rw [h.armed_eq]
  exact blind_ite (blind_throw _) (blind_setArmed _) m n h

omit [Context C] in
/-- Whoever has to be in a state inside the program is known where the section goes on. -/
theorem blind_demandState {s : ThreadState} (hs : s ≠ .uncaptured) (r : Request)
    {f : Unit → Critical C σ α} (hf : K tid → Blind K (f ())) : Blind K (demandState tid s r >>= f) := by
  intro m n h
  have heq := h.table.state?_eq tid
  cases hst : n.table.state? tid with
  | none =>
    rw [bind_of_error (demandState_of_none (heq.trans hst) r), bind_of_error (demandState_of_none hst r),
      h.table.capacity_eq]
    exact .error _ h
  | some st =>
    have hm := demandState_of_some (t := s) (heq.trans hst) r
    have hn := demandState_of_some (t := s) hst r
    rcases eq_or_ne st s with rfl | hne
    · rw [bind_of_ok (hm.trans (if_pos rfl)), bind_of_ok (hn.trans (if_pos rfl))]
      exact hf (h.table.known tid ⟨st, heq.trans hst, hs⟩) m n h
    · rw [bind_of_error (hm.trans (if_neg hne)), bind_of_error (hn.trans (if_neg hne))]
      exact .error _ h

omit [Context C] in
/-- Whom a request blocks is idle, and so known. -/
theorem blind_block (arb : Arbiter C σ) (tid : ThreadId) : Blind K (arb.block tid) := by
  refine blind_demandState (by decide) _ fun htid => blind_get fun m n h => ?_
  rw [h.captured_eq]
  have hrest : Blind K (do
      setState tid .blocked
      setCaptured ((← get).captured - 1)
      tally fun s => { s with blocks := s.blocks + 1 }
      arb.noteHandOff s!"blocked idle thread {tid}" : Critical C σ Unit) := by
    refine (blind_setState (.inr htid)).bind fun _ => blind_get fun m n h => ?_
    rw [h.captured_eq]
    exact Blind.bind (blind_setCaptured _)
      (fun _ => (blind_tally _).bind fun _ => arb.blind_noteHandOff _) m n h
  exact blind_ite (blind_throw _) hrest m n h

omit [Context C] in
/-- Whom a request unblocks is blocked, and so known. -/
theorem blind_unblock (arb : Arbiter C σ) (tid : ThreadId) : Blind K (arb.unblock tid) := by
  refine blind_demandState (by decide) _ fun htid => ?_
  refine (blind_setState (.inr htid)).bind fun _ => blind_get fun m n h => ?_
  rw [h.captured_eq]
  exact Blind.bind (blind_setCaptured _)
    (fun _ => (blind_tally _).bind fun _ => arb.blind_noteHandOff _) m n h

omit [Context C] in
/-- A context that can be edited is that of a thread inside. -/
theorem blind_editContext (tid : ThreadId) (f : C → α × C) :
    Blind K (editContext tid f : Critical C σ α) := by
  refine blind_stateOf fun s hs => ?_
  cases ho : s.hasOpenContext with
  | false => exact blind_throw _
  | true =>
    have htid : K tid := hs (by rintro rfl; nomatch ho)
    exact (blind_contextOf htid).bind fun c => (blind_modifyContext htid _).bind fun _ => blind_pure _

omit [Context C] in
/-- A plan depends on the scheduler and on the unit. -/
theorem blind_planUnit (arb : Arbiter C σ) (u : CodeUnit) : Blind K (arb.planUnit u) := by
  refine blind_get fun m n h => ?_
  rw [h.schedulerState_eq]
  refine Blind.bind (blind_tell _) (fun _ => ?_) m n h
  refine (blind_tally _).bind fun _ => (blind_ofExcept _).bind fun p => ?_
  exact (blind_note _ _).bind fun _ => blind_pure _

/-- **No call tells alike ledgers apart.** -/
theorem perform_agree (arb : Arbiter C σ) (h : m.Alike K n) (call : Call C) :
    Agree (Event.meets K (.call call : Event C σ)) (arb.perform call m) (arb.perform call n) := by
  cases call with
  | start tid c => exact (arb.blind_startThread tid c).bind (fun _ => blind_pure _) m n h
  | finish tid => exact (arb.blind_endThread tid).bind (fun _ => blind_pure _) m n h
  | arrive tid c => exact (arb.arrive_agree h tid c).bind fun _ => blind_pure _
  | depart tid c => exact (arb.blind_depart tid c).bind (fun _ => blind_pure _) m n h
  | switch tid c => exact (arb.blind_switch tid c).bind (fun _ => blind_pure _) m n h
  | plan u => exact (arb.blind_planUnit u).bind (fun _ => blind_pure _) m n h
  | armBlock => exact blind_armBlock.bind (fun _ => blind_pure _) m n h
  | block tid => exact (arb.blind_block tid).bind (fun _ => blind_pure _) m n h
  | unblock tid => exact (arb.blind_unblock tid).bind (fun _ => blind_pure _) m n h
  | readRegister tid r | writeRegister tid r v | copyContext tid | replaceContext tid c =>
    exact (blind_editContext tid _).bind (fun _ => blind_pure _) m n h

/-- **No event tells alike ledgers apart**, unless a thread looks again that is not known. -/
theorem react_agree (arb : Arbiter C σ) (h : m.Alike K n) {e : Event C σ}
    (hlook : ∀ tid, e = .lookAgain tid → K tid) :
    (arb.react m e).Alike (e.meets K) (arb.react n e) ∧ arb.answer m e = arb.answer n e := by
  cases e with
  | call call =>
    obtain ⟨halike, hanswer⟩ := (arb.perform_agree h call).parts
    exact ⟨halike, congrArg some hanswer⟩
  | lookAgain tid =>
    obtain ⟨halike, hanswer⟩ := (arb.blind_lookAgain (hlook tid rfl) m n h).parts
    exact ⟨halike, by rw [answer, answer, hanswer]⟩
  | takePermit tid => exact ⟨{ h with }, rfl⟩
  | edit tid f =>
    obtain ⟨halike, hanswer⟩ := (blind_editContext tid (fun c => ((), f c)) m n h).parts
    exact ⟨halike, by rw [answer, answer, hanswer]⟩
  | think s => exact ⟨{ h with schedulerState_eq := rfl }, rfl⟩

/-! ## Runs -/

/-- **The answers to any events are the same** on alike ledgers, if whoever looks again is known or has
arrived before. -/
theorem answers_eq_of_known (arb : Arbiter C σ) (h : m.Alike K n) {es : List (Event C σ)}
    (hes : ∀ pre tid post, es = pre ++ .lookAgain tid :: post →
      K tid ∨ ∃ c, .call (.arrive tid c) ∈ pre) :
    arb.answers m es = arb.answers n es := by
  induction es generalizing m n K with
  | nil => rfl
  | cons e es ih =>
    have hlook (tid : ThreadId) (he : e = .lookAgain tid) : K tid := by
      subst he
      exact (hes [] tid es rfl).resolve_right fun ⟨_, hc⟩ => nomatch hc
    obtain ⟨halike, hanswer⟩ := arb.react_agree h hlook
    refine congrArg₂ List.cons hanswer (ih halike fun pre tid post hsplit => ?_)
    obtain hknown | ⟨c, hc⟩ := hes (e :: pre) tid post (congrArg (e :: ·) hsplit)
    · exact .inl (Event.meets_of_known hknown e)
    · obtain rfl | hc := List.mem_cons.mp hc
      · exact .inl (.inr rfl)
      · exact .inr ⟨c, hc⟩

end Arbiter

end SoleRunner
