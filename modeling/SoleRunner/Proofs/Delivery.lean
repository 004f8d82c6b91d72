import SoleRunner.Proofs.OtherSlots

/-!
# Proofs/Delivery — saved contexts are kept, and delivered

A thread that is idle or blocked has a saved context (`Ledger.Parked`).  Whatever happens in the crew, that
changes only by requests that name the thread, until the thread is made the runner.  Then the first
executor that is told to run it is given exactly this context, with the marks of an executor: in the
section that made it the runner, or, if that left the role vacant, in the one that takes it
(`kept_until_delivered`).
-/

namespace SoleRunner

namespace Move

variable {C σ : Type} [Context C]

/-- What a move makes of the saved context `c` of `u` if that may be edited. -/
def edits (mv : Move C σ) (u : ThreadId) (c : C) : C :=
  match mv with
  | .edit tid f => if tid = u then f c else c
  | .request (.writeRegister tid r v) => if tid = u then Context.setReg c r v else c
  | .request (.replaceContext tid d) => if tid = u then d else c
  | _ => c

/-- What moves make of the saved context `c` of `u` as long as that may be edited. -/
def editedBy (u : ThreadId) (mvs : List (Move C σ)) (c : C) : C :=
  mvs.foldl (fun c mv => mv.edits u c) c

end Move

/-! ## Threads that do not run -/

namespace Ledger

variable {C σ : Type} {m m' : Ledger C σ} {u : ThreadId} {c d : C}

/-- **`u` is in the program and does not run**, and `c` is its saved context. -/
structure Parked (m : Ledger C σ) (u : ThreadId) (c : C) : Prop where
  state : m.table.state? u = some .idle ∨ m.table.state? u = some .blocked
  saved : m.table.saved? u = some c

/-- `u` is the runner and nobody is the executor, and `c` is the saved context of `u`. -/
structure Appointed (m : Ledger C σ) (u : ThreadId) (c : C) : Prop where
  runner_eq : m.runner = u
  executor_eq : m.executor = .nobody
  state : m.table.state? u = some .running
  saved : m.table.saved? u = some c

namespace Parked

theorem exists_open (h : m.Parked u c) :
    ∃ s, m.table.state? u = some s ∧ s.hasOpenContext = true ∧ s ≠ .running := by
  obtain hs | hs := h.state
  · exact ⟨.idle, hs, rfl, by decide⟩
  · exact ⟨.blocked, hs, rfl, by decide⟩

theorem ne_running (h : m.Parked u c) : m.table.state? u ≠ some .running := by
  obtain ⟨s, hs, -, hne⟩ := h.exists_open
  rw [hs]
  exact fun e => hne (Option.some.inj e)

theorem not_outside (h : m.Parked u c) : ¬ m.table.Outside u := by
  obtain hs | hs := h.state
  · exact Table.not_outside_of_state hs (by decide)
  · exact Table.not_outside_of_state hs (by decide)

theorem ne_runner (h : m.Parked u c) (hb : m.table.Balanced m.captured m.runner) : u ≠ m.runner := by
  obtain ⟨s, hs, -⟩ := h.exists_open
  refine hb.ne_runner_of_state hs ?_
  rintro rfl
  exact h.ne_running hs

theorem of_spares (h : m.Parked u c) (hsp : Spares u m m') : m'.Parked u c :=
  ⟨by rw [hsp.state_eq]; exact h.state, hsp.saved_eq.trans h.saved⟩

theorem withSaved (h : m.Parked u c) (d : C) : (m.withSaved u d).Parked u d := by
  obtain ⟨s, hs, -⟩ := h.exists_open
  exact ⟨by simpa only [Ledger.withSaved, Table.state?_save] using h.state, Table.saved?_save_self hs⟩

/-- A thread that is moved between idle and blocked keeps its context. -/
theorem mark (h : m.Parked u c) {tid : ThreadId} {s : ThreadState} (hs : s = .idle ∨ s = .blocked)
    (ht : m'.table = m.table.mark tid s) : m'.Parked u c := by
  refine ⟨?_, by rw [ht, Table.saved?_mark, h.saved]⟩
  obtain ⟨t, hu, -⟩ := h.exists_open
  rw [ht]
  rcases eq_or_ne u tid with rfl | hne
  · rw [Table.state?_mark_self hu]
    exact hs.imp (congrArg some) (congrArg some)
  · rw [Table.state?_mark_of_ne hne]
    exact h.state

end Parked

/-- What leaves the roles and the slot of the runner alone leaves it appointed. -/
theorem Appointed.of_spares (h : m.Appointed u c) (hr : m'.runner = m.runner)
    (he : m'.executor = m.executor) (hsp : Spares u m m') : m'.Appointed u c :=
  ⟨hr.trans h.runner_eq, he.trans h.executor_eq, hsp.state_eq.trans h.state, hsp.saved_eq.trans h.saved⟩

end Ledger

/-! ## Requests -/

namespace Arbiter

open Critical Ledger

variable {C σ α : Type} {arb : Arbiter C σ} {m : Ledger C σ} {u tid : ThreadId} {c : C}

/-- An edit changes the context that it names. -/
theorem parked_editContext (h : m.Parked u c) (tid : ThreadId) (f : C → α × C) :
    (left (editContext tid f m)).Parked u (if tid = u then (f c).2 else c) := by
  rcases eq_or_ne tid u with rfl | hne
  · obtain ⟨s, hs, hopen, -⟩ := h.exists_open
    rw [editContext_of_open f hs hopen h.saved, if_pos rfl]
    exact h.withSaved _
  · rw [if_neg hne]
    exact h.of_spares ((editContext_outcome tid f m).spares_of_ne hne.symm)

theorem Blocks.parked {r : EStateM.Result Fault (Ledger C σ) Unit} (h : m.Parked u c)
    (ho : Blocks tid m r) : (left r).Parked u c := by
  cases ho with
  | unknown => exact h
  | refused => exact h
  | last => exact h
  | blocked => exact h.mark (.inr rfl) rfl

theorem Unblocks.parked {r : EStateM.Result Fault (Ledger C σ) Unit} (h : m.Parked u c)
    (ho : Unblocks tid m r) : (left r).Parked u c := by
  cases ho with
  | unknown => exact h
  | refused => exact h
  | unblocked => exact h.mark (.inl rfl) rfl

variable [Context C]

/-- **A request leaves a thread that does not run in the program**, and its context as it is unless it
names the thread. -/
theorem parked_request (arb : Arbiter C σ) (h : m.Parked u c) {call : Call C}
    (hcall : call.isHandler = false) :
    (left (arb.perform call m)).Parked u ((Move.request (σ := σ) call).edits u c) := by
  have hread {β : Type} (tid : ThreadId) (f : C → β) :
      (left (editContext tid (fun d => (f d, d)) m)).Parked u c := by
    have hp := parked_editContext h tid fun d => (f d, d)
    rwa [ite_self] at hp
  cases call with
  | start => nomatch hcall
  | finish => nomatch hcall
  | arrive => nomatch hcall
  | depart => nomatch hcall
  | switch => nomatch hcall
  | plan => nomatch hcall
  | armBlock =>
    refine left_answer (Ledger.Parked · u c) ?_
    rw [armBlock_apply]
    split
    · exact h
    · exact h.of_spares (.of_table rfl)
  | block tid => exact left_answer (Ledger.Parked · u c) ((arb.block_outcome tid m).parked h)
  | unblock tid => exact left_answer (Ledger.Parked · u c) ((arb.unblock_outcome tid m).parked h)
  | readRegister tid r => exact left_answer (Ledger.Parked · u c) (hread tid _)
  | copyContext tid => exact left_answer (Ledger.Parked · u c) (hread tid _)
  | writeRegister tid r v => exact left_answer (Ledger.Parked · u _) (parked_editContext h tid _)
  | replaceContext tid d => exact left_answer (Ledger.Parked · u _) (parked_editContext h tid _)

/-- A copy of the saved context is what it is. -/
theorem copyContext_of_parked (arb : Arbiter C σ) (h : m.Parked u c) :
    arb.perform (.copyContext u) m = .ok (.context c) (m.withSaved u c) := by
  obtain ⟨s, hs, hopen, -⟩ := h.exists_open
  have hcopy : copyContext u m = .ok c (m.withSaved u c) := editContext_of_open _ hs hopen h.saved
  rw [perform, bind_of_ok hcopy]
  rfl

/-- A context that is loaded is saved. -/
theorem replaceContext_of_parked (arb : Arbiter C σ) (h : m.Parked u c) (d : C) :
    arb.perform (.replaceContext u d) m = .ok .done (m.withSaved u d) := by
  obtain ⟨s, hs, hopen, -⟩ := h.exists_open
  have hreplace : replaceContext u d m = .ok () (m.withSaved u d) :=
    editContext_of_open _ hs hopen h.saved
  rw [perform, bind_of_ok hreplace]
  rfl

/-! ## Taking the vacant role -/

/-- A newcomer that finds the role vacant takes it. -/
theorem Arrives.answer_of_appointed {a : Arrival C} {d : C} {m' : Ledger C σ} (h : m.Appointed u c)
    (hb : m.table.Balanced m.captured m.runner) (htid : m.executor ≠ tid)
    (ho : Arrives arb tid d m (.ok a m')) :
    a.answer = some ⟨u, .executor, arb.stampExecutor u c⟩ := by
  cases ho with
  | returned hs he => exact absurd he htid
  | joined hs hset =>
    have hne : u ≠ tid := by
      rintro rfl
      cases h.state.symm.trans hs
    have hlater : m.captured ≠ 0 := Nat.ne_of_gt (hb.captured_pos h.state rfl)
    have hrunner : (m.entered arb.scheduler tid d).runner = u :=
      (entered_runner_of_later hlater).trans h.runner_eq
    cases hset with
    | paid howes he hn hr =>
      exact absurd (he.trans h.executor_eq) hr
    | took howes he hr hx =>
      rw [hrunner, saved?_entered_of_ne hne] at hx
      cases hx.symm.trans h.saved
      rw [hrunner]
      rfl
    | waits howes he => exact absurd h.executor_eq he

/-- An arrival saves its context, and is given it at once if it is to run. -/
theorem Arrives.parks {a : Arrival C} {m' : Ledger C σ} (hb : m.table.Balanced m.captured m.runner)
    (hruns : m.executor ≠ .nobody → m.runner ≠ .nobody) (hs : m.table.Outside tid)
    (ho : Arrives arb tid c m (.ok a m')) :
    m'.Parked tid c ∨ a.answer = some ⟨tid, .executor, arb.stampExecutor tid c⟩ := by
  have hb' := entered_balanced hb arb.scheduler c hs
  have hsaved := saved?_entered_self (p := arb.scheduler) (c := c) hs
  cases ho with
  | returned hrun => cases hs.symm.trans hrun
  | joined _ hset =>
    by_cases h0 : m.captured = 0
    · have hfirst : (m.entered arb.scheduler tid c).runner = tid := if_pos h0
      cases hset with
      | paid howes he hn =>
        have hone : m.captured + 1 = 2 := hn
        omega
      | took howes he hr hx =>
        rw [hfirst] at hx ⊢
        cases hx.symm.trans hsaved
        exact .inr rfl
      | waits howes he => exact absurd (hb.runner_eq_nobody h0) (hruns he)
    · have hparked : (m.entered arb.scheduler tid c).Parked tid c :=
        ⟨.inl (state?_entered_of_later h0 hs), hsaved⟩
      cases hset.reaches hb' (hparked.ne_runner hb') with
      | spared hsp => exact .inl (hparked.of_spares hsp)
      | delivered _ hc _ ha =>
        cases hc.symm.trans hsaved
        exact .inr ha
      | appointed _ _ _ he =>
        -- an arrival does not leave the role vacant
        have htid := hb.ne_nobody hs
        cases hset with
        | paid => exact absurd he htid
        | took => exact absurd he htid
        | waits howes hne => exact absurd he hne

/-- So does a waiting thread that looks again, unless it has been uncaptured. -/
theorem Looks.answer_of_appointed {a : Arrival C} {m' : Ledger C σ} (h : m.Appointed u c)
    (ho : Looks arb tid m (.ok a m')) :
    a.answer = some ⟨u, .executor, arb.stampExecutor u c⟩ ∨
      m'.Appointed u c ∧ ∀ r, a.answer = some r → r.role ≠ .executor := by
  cases ho with
  | released hs hc =>
    have hne : u ≠ tid := by
      rintro rfl
      cases h.state.symm.trans hs
    refine .inr ⟨⟨h.runner_eq, h.executor_eq, ?_, ?_⟩, fun r hr => Option.some.inj hr ▸ nofun⟩
    · exact Table.state?_save.trans h.state
    · exact (saved?_withSaved_of_ne hne).trans h.saved
  | took hs hne he hr hx =>
    rw [h.runner_eq] at hx
    cases hx.symm.trans h.saved
    rw [h.runner_eq]
    exact .inl rfl
  | waits hs hne he => exact absurd h.executor_eq he

end Arbiter

/-! ## Moves -/

namespace Crew

open Critical Arbiter Ledger

variable {C σ : Type} [Context C] {arb : Arbiter C σ} {w w' : Crew C σ} {u : ThreadId} {mv : Move C σ}
  {c : C}

/-- **A move leaves a thread that does not run in the program, or makes it the runner**: then its context is
handed out, or kept for whoever takes the vacant role. -/
theorem Moves.parked (hw : w.Stationed) (hm : Moves arb w mv w') (h : w.ledger.Parked u c) :
    w'.ledger.Parked u (mv.edits u c) ∨
      w'.ledger.table.state? u = some .running ∧
        w'.answer mv = some ⟨u, .executor, arb.stampExecutor u c⟩ ∨
      w'.ledger.Appointed u c ∧ ∀ r, w'.answer mv = some r → r.role ≠ .executor := by
  cases hmv : mv.isRequest with
  | true =>
    cases hm with
    | request hcall => exact .inl (parked_request arb h hcall)
    | @edit tid f => exact .inl (parked_editContext h tid _)
    | _ => nomatch hmv
  | false =>
    have hedits : mv.edits u c = c := by
      cases mv with
      | request => nomatch hmv
      | edit => nomatch hmv
      | _ => rfl
    rw [hedits]
    have hne := h.ne_runner hw.sound.balanced
    cases hm.reaches hw hne (fun hout => absurd hout h.not_outside) hmv with
    | spared hsp => exact .inl (h.of_spares hsp)
    | delivered hs hc hrun ha =>
      cases hc.symm.trans h.saved
      exact .inr (.inl ⟨hrun, ha⟩)
    | appointed hs hc hr he hc' ha =>
      cases hc.symm.trans h.saved
      have hs' := (hm.stationed hw).sound.balanced
      refine .inr (.inr ⟨⟨hr, he, ?_, hc'⟩, ha⟩)
      obtain ⟨s, hstate⟩ := Table.state?_of_saved? hc'
      have hrun := hs'.runner_running (hr ▸ hs'.ne_nobody hstate)
      rwa [hr] at hrun

/-- **Whoever takes the vacant role is told to run the runner, with its saved context**; until then nothing
changes. -/
theorem Moves.appointed (hw : w.Stationed) (hm : Moves arb w mv w') (h : w.ledger.Appointed u c) :
    w'.answer mv = some ⟨u, .executor, arb.stampExecutor u c⟩ ∨
      w'.ledger.Appointed u c ∧ ∀ r, w'.answer mv = some r → r.role ≠ .executor := by
  have hb := hw.sound.balanced
  have hvacant {tid : ThreadId} {d : C} {last : Option (Resume C)} (hp : w.place tid = .outside d last) :
      w.ledger.executor ≠ tid := fun he => hw.ne_nobody_of_outside hp (he.symm.trans h.executor_eq)
  have hquiet (hc : mv.caller = none) (hkept : w'.ledger.Appointed u c) :
      w'.answer mv = some ⟨u, .executor, arb.stampExecutor u c⟩ ∨
        w'.ledger.Appointed u c ∧ ∀ r, w'.answer mv = some r → r.role ≠ .executor := by
    rw [answer_of_caller_none hc]
    exact .inr ⟨hkept, nofun⟩
  cases hm with
  | start hp ho =>
    have ho : Starts arb _ _ w.ledger _ := ho ▸ arb.startThread_outcome _ _ w.ledger
    cases ho with
    | started => exact hquiet rfl (h.of_spares rfl rfl (.of_table rfl))
  | @arrive tid d last a m hp hg ho =>
    rw [answer_put rfl, Arrival.last_place]
    exact .inl ((ho ▸ arrive_outcome hb : Arrives ..).answer_of_appointed h hb (hvacant hp))
  | depart hp hg ho =>
    have ho : Departs arb _ _ w.ledger _ := ho ▸ depart_outcome hb
    cases ho with
    | shipped he => exact absurd he (hvacant hp)
    | handedOver he => exact absurd he (hvacant hp)
    | owed he => exact absurd he (hvacant hp)
  | switch hp hg ho =>
    have ho : Switches arb _ _ w.ledger _ := ho ▸ switch_outcome hb
    cases ho with
    | switched hcheck => exact absurd (of_checkSwitch hcheck).2.1 (hvacant hp)
  | finish hp hg ho =>
    have ho : Finishes arb _ w.ledger _ := ho ▸ arb.endThread_outcome _ w.ledger
    cases ho with
    | outside => exact hquiet rfl (h.of_spares rfl rfl (.of_table rfl))
    | last hs hn he => exact absurd he (hvacant hp)
  | compute hp hg => exact hquiet rfl h
  | wake hp hpermit => exact hquiet rfl (h.of_spares rfl rfl (.of_table rfl))
  | @look tid a m hp ho =>
    rw [answer_put rfl, Arrival.last_place]
    exact (ho ▸ lookAgain_outcome hb : Looks ..).answer_of_appointed h
  | @plan cu =>
    have hk := arb.keeps_planUnit cu w.ledger
    exact hquiet rfl (h.of_spares hk.runner_eq hk.executor_eq (spares_planUnit arb cu w.ledger))
  | @request call hcall =>
    have hk := arb.keeps_request hcall w.ledger
    exact hquiet rfl (h.of_spares hk.runner_eq hk.executor_eq (spares_request arb h.state rfl hcall))
  | @edit tid f =>
    have ho := editContext_outcome tid (fun c => ((), f c)) w.ledger
    exact hquiet rfl (h.of_spares ho.keeps.runner_eq ho.keeps.executor_eq (ho.spares h.state rfl))
  | think => exact hquiet rfl (h.of_spares rfl rfl (.of_table rfl))

/-! ## Runs -/

/-- **The first answer in a row of moves that tells an executor to run `u`**. -/
def firstResume (arb : Arbiter C σ) (u : ThreadId) : List (Move C σ) → Crew C σ → Option (Resume C)
  | [], _ => none
  | mv :: mvs, w =>
    match w.next arb mv with
    | none => none
    | some w' =>
      match w'.answer mv with
      | none => firstResume arb u mvs w'
      | some r => if r.tid = u ∧ r.role = .executor then some r else firstResume arb u mvs w'

variable {mvs : List (Move C σ)} {r : Resume C}

theorem firstResume_of_answer (h : w.next arb mv = some w') (ha : w'.answer mv = some r)
    (hr : r.tid = u) (hrole : r.role = .executor) : firstResume arb u (mv :: mvs) w = some r := by
  simp only [firstResume, h, ha]
  exact if_pos ⟨hr, hrole⟩

theorem firstResume_of_not_executor (h : w.next arb mv = some w')
    (ha : ∀ r, w'.answer mv = some r → r.role ≠ .executor) :
    firstResume arb u (mv :: mvs) w = firstResume arb u mvs w' := by
  simp only [firstResume, h]
  split
  next => rfl
  next r hr => exact if_neg fun hru => ha r hr hru.2

/-- Once `u` is the runner and nobody is the executor, the first one that is told to run `u` gets the
saved context. -/
theorem firstResume_of_appointed (hw : w.Stationed) (h : w.ledger.Appointed u c)
    (hr : firstResume arb u mvs w = some r) : r = ⟨u, .executor, arb.stampExecutor u c⟩ := by
  induction mvs generalizing w with
  | nil => nomatch hr
  | cons mv mvs ih =>
    cases hnext : w.next arb mv with
    | none =>
      simp only [firstResume, hnext] at hr
      nomatch hr
    | some w' =>
      have hm := moves_of_next hnext
      obtain ha | ⟨happ, ha⟩ := hm.appointed hw h
      · rw [firstResume_of_answer hnext ha rfl rfl] at hr
        exact (Option.some.inj hr).symm
      · rw [firstResume_of_not_executor hnext ha] at hr
        exact ih (hm.stationed hw) happ hr

/-- **While a thread does not run, its saved context changes by requests that name it, and by nothing
else.** -/
theorem parked_of_run (hw : w.Stationed) (h : w.ledger.Parked u c) (hrun : w.run arb mvs = some w')
    (hout : ∀ pre v, pre <+: mvs → w.run arb pre = some v → v.ledger.table.state? u ≠ some .running) :
    w'.ledger.Parked u (Move.editedBy u mvs c) := by
  induction mvs generalizing w c with
  | nil => exact Option.some.inj hrun ▸ h
  | cons mv mvs ih =>
    obtain ⟨v, hmv, hrest⟩ := of_run_cons hrun
    have hm := moves_of_next hmv
    have hone : w.run arb [mv] = some v := by rw [run_cons, hmv]; rfl
    have hv : v.ledger.table.state? u ≠ some .running :=
      hout [mv] v (List.cons_prefix_cons.mpr ⟨rfl, List.nil_prefix⟩) hone
    refine ih (hm.stationed hw) ?_ hrest fun pre v' hpre hpath => ?_
    · obtain hv' | ⟨hv', -⟩ | ⟨hv', -⟩ := hm.parked hw h
      · exact hv'
      · exact absurd hv' hv
      · exact absurd hv'.state hv
    · refine hout (mv :: pre) v' (List.cons_prefix_cons.mpr ⟨rfl, hpre⟩) ?_
      rw [run_cons, hmv]
      exact hpath

variable {scheduler : Scheduler C σ} {initial : σ} {config : Config} {setup setup' : Setup C σ}
  {m : Ledger C σ} {mvs' : List (Move C σ)}

/-- **Saved contexts are kept, and delivered.**  In every state that a crew of a new arbiter can reach: an
arrival saves its context, or is given it at once.  From then on, as long as the thread does not run, its
saved context is what requests that name the thread have made of it, and a copy of it shows that; so one
that has been loaded can be read back.  Once a move makes the thread the runner, the first answer that
tells an executor to run it carries the context that was saved before that move, marked: nothing is
written to it but 1 to the one register of the arbiter, and the thread's index to the other. -/
theorem kept_until_delivered (h : create scheduler initial config setup = .ok (arb, m) setup')
    (hrun : (new m).run arb mvs' = some w) (u : ThreadId) :
    let marked (c : C) : C :=
      Context.setReg (Context.setReg c arb.roleReg 1) arb.choiceReg u.raw.toUInt64
    (∀ c last w', w.place u = .outside c last → w.ledger.table.Outside u →
      w.next arb (.arrive u) = some w' → w'.ledger.Parked u c ∨
        w'.answer (.arrive u) = some ⟨u, .executor, marked c⟩) ∧
    ∀ c, w.ledger.Parked u c →
      (∀ mvs w', w.run arb mvs = some w' →
        (∀ pre v, pre <+: mvs → w.run arb pre = some v →
          v.ledger.table.state? u ≠ some .running) →
        w'.ledger.Parked u (Move.editedBy u mvs c) ∧
        ∃ m', arb.perform (.copyContext u) w'.ledger = .ok (.context (Move.editedBy u mvs c)) m') ∧
      (∀ d, ∃ m' m'', arb.perform (.replaceContext u d) w.ledger = .ok .done m' ∧
        arb.perform (.copyContext u) m' = .ok (.context d) m'') ∧
      ∀ mv w', w.next arb mv = some w' → w'.ledger.table.state? u = some .running →
        ∀ mvs r, firstResume arb u (mv :: mvs) w = some r →
          r = ⟨u, .executor, marked c⟩ := by
  intro marked
  have hw := stationed_of_run h hrun
  have hmarked {s : ThreadState} {v : Crew C σ} (hv : v.Stationed)
      (hs : v.ledger.table.state? u = some s) (c : C) : marked c = arb.stampExecutor u c :=
    (stampExecutor_eq arb (hv.sound.balanced.ne_nobody hs) c).symm
  refine ⟨fun c last w' hp hu hnext => ?_, fun c hc => ⟨fun mvs w' hrun' hout => ?_, fun d => ?_,
    fun mv w' hnext hstate mvs r hr => ?_⟩⟩
  · cases moves_of_next hnext with
    | arrive hp' hg ho =>
      cases hp.symm.trans hp'
      rw [answer_put rfl, Arrival.last_place, hmarked hw hu]
      exact (ho ▸ arrive_outcome hw.sound.balanced : Arrives ..).parks hw.sound.balanced hw.executor_runs hu
  · have hw' := parked_of_run hw hc hrun' hout
    exact ⟨hw', _, copyContext_of_parked arb hw'⟩
  · exact ⟨_, _, replaceContext_of_parked arb hc d, copyContext_of_parked arb (hc.withSaved d)⟩
  · have hw' := (moves_of_next hnext).stationed hw
    rw [hmarked hw' hstate]
    obtain hkept | ⟨-, ha⟩ | ⟨happ, ha⟩ := (moves_of_next hnext).parked hw hc
    · exact absurd hstate hkept.ne_running
    · rw [firstResume_of_answer hnext ha rfl rfl] at hr
      exact (Option.some.inj hr).symm
    · rw [firstResume_of_not_executor hnext ha] at hr
      exact firstResume_of_appointed hw' happ hr

/-- The second of two threads waits.  It is blocked and its third register is set, and that shows in a
copy; and when the first one makes a system call instead, the second is told to run as it was. -/
theorem kept_until_delivered_rotation :
    ∃ w w' : Crew Cursor Rotation,
      (new (.fresh 2 {})).run twoSlots [.start ⟨0⟩ (.start ⟨0⟩), .arrive ⟨0⟩, .start ⟨1⟩ (.start ⟨1⟩),
        .arrive ⟨1⟩] = some w ∧
      w.run twoSlots [.request (.block ⟨1⟩), .request (.writeRegister ⟨1⟩ ⟨2⟩ 7)] = some w' ∧
      (∃ m', twoSlots.perform (.copyContext ⟨1⟩) w'.ledger =
        .ok (.context (Context.setReg (Cursor.start ⟨1⟩) ⟨2⟩ 7)) m') ∧
      firstResume twoSlots ⟨1⟩ [.depart ⟨0⟩, .wake ⟨1⟩, .look ⟨1⟩] w = some ⟨⟨1⟩, .executor,
        Context.setReg (Context.setReg (Cursor.start ⟨1⟩) twoSlots.roleReg 1) twoSlots.choiceReg 1⟩ := by
  obtain ⟨setup, h⟩ := create_twoSlots
  obtain ⟨w, w', hrun, hrun', hparked, hlast, hfirst, w₁, r, hdepart, hrunning, hr⟩ :
      ∃ w w' : Crew Cursor Rotation,
        (new (.fresh 2 {})).run twoSlots [.start ⟨0⟩ (.start ⟨0⟩), .arrive ⟨0⟩, .start ⟨1⟩ (.start ⟨1⟩),
          .arrive ⟨1⟩] = some w ∧
        w.run twoSlots [.request (.block ⟨1⟩), .request (.writeRegister ⟨1⟩ ⟨2⟩ 7)] = some w' ∧
        w.ledger.Parked ⟨1⟩ (.start ⟨1⟩) ∧ w'.ledger.table.state? ⟨1⟩ ≠ some .running ∧
        (∀ v, w.run twoSlots [.request (.block ⟨1⟩)] = some v →
          v.ledger.table.state? ⟨1⟩ ≠ some .running) ∧
        ∃ w₁ r, w.next twoSlots (.depart ⟨0⟩) = some w₁ ∧ w₁.ledger.table.state? ⟨1⟩ = some .running ∧
          firstResume twoSlots ⟨1⟩ [.depart ⟨0⟩, .wake ⟨1⟩, .look ⟨1⟩] w = some r :=
    ⟨_, _, rfl, rfl, ⟨.inl rfl, rfl⟩, nofun, by rintro v ⟨⟩; exact nofun, _, _, rfl, rfl, rfl⟩
  obtain ⟨hkept, -, hdelivered⟩ := (kept_until_delivered h hrun ⟨1⟩).2 _ hparked
  obtain ⟨-, hcopy⟩ := hkept _ w' hrun' fun pre v hpre hv => by
    obtain rfl | ⟨rest, rfl, hrest⟩ := List.prefix_cons_iff.mp hpre
    · exact Option.some.inj hv ▸ hparked.ne_running
    · obtain rfl | ⟨rest, rfl, hnil⟩ := List.prefix_cons_iff.mp hrest
      · exact hfirst v hv
      · rw [List.prefix_nil.mp hnil] at hv
        cases hrun'.symm.trans hv
        exact hlast
  have hdelivery := hdelivered _ w₁ hdepart hrunning _ r hr
  exact ⟨w, w', hrun, hrun', hcopy, hr.trans (congrArg some hdelivery)⟩

end Crew

end SoleRunner
