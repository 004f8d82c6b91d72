import SoleRunner.Proofs.Custody

/-!
# Proofs/OtherSlots — what a section does to the slot of another thread

Sections write contexts into the slot of the runner and into that of the thread that calls.  So the slot
of a thread that does not run is left alone by what others do, until one of them makes it the runner:
then its saved context is handed out with the executor's marks, or kept for whoever takes the vacant
role (`Reaches`).  Requests from outside are the only other way to a slot, and they name it.
-/

namespace SoleRunner

/-! ## Answers -/

/-- The answer of an arrival that is over. -/
def Arrival.answer {C : Type} : Arrival C → Option (Resume C)
  | .resumed r => some r
  | .waiting => none

/-- The answer that resumed a thread which is in some code. -/
def Place.last {C : Type} : Place C → Option (Resume C)
  | .outside _ last => last
  | .absent | .inside _ => none

@[simp] theorem Resume.last_place {C : Type} (r : Resume C) : r.place.last = some r := rfl

@[simp] theorem Arrival.last_place {C : Type} (a : Arrival C) : a.place.last = a.answer := by
  cases a <;> rfl

/-- The thread whose call a move is a section of, if that call can be answered with a context to go on
with. -/
def Move.caller {C σ : Type} : Move C σ → Option ThreadId
  | .arrive tid | .depart tid | .switch tid | .look tid => some tid
  | _ => none

/-- A request from outside. -/
def Move.isRequest {C σ : Type} : Move C σ → Bool
  | .request _ | .edit .. => true
  | _ => false

/-- The answer that a move has left in the crew `w`. -/
def Crew.answer {C σ : Type} (w : Crew C σ) (mv : Move C σ) : Option (Resume C) :=
  mv.caller.bind fun tid => (w.place tid).last

namespace Ledger

variable {C σ : Type} {m m' n : Ledger C σ} {tid u next : ThreadId} {c : C} {s : σ}
  {log : Array Log.Entry} {p : Scheduler C σ}

/-- The slot of `u` is the same in both ledgers. -/
structure Spares (u : ThreadId) (m m' : Ledger C σ) : Prop where
  state_eq : m'.table.state? u = m.table.state? u
  saved_eq : m'.table.saved? u = m.table.saved? u

theorem Spares.refl (u : ThreadId) (m : Ledger C σ) : Spares u m m := ⟨rfl, rfl⟩

/-- Slots are all in the table. -/
theorem Spares.of_table (h : m'.table = m.table) : Spares u m m' := ⟨by rw [h], by rw [h]⟩

theorem Spares.trans (h : Spares u m n) (h' : Spares u n m') : Spares u m m' :=
  ⟨h'.state_eq.trans h.state_eq, h'.saved_eq.trans h.saved_eq⟩

/-- To save a context spares everybody else. -/
theorem spares_withSaved (hu : u ≠ tid) : Spares u m (m.withSaved tid c) :=
  ⟨Table.state?_save, saved?_withSaved_of_ne hu⟩

/-- Saving another thread's context as well changes nothing. -/
theorem Spares.withSaved (h : Spares u m m') (hu : u ≠ tid) : Spares u m (m'.withSaved tid c) :=
  h.trans (spares_withSaved hu)

/-- To replace the runner spares all but the two of them. -/
theorem spares_replaced (s : σ) (hn : u ≠ next) (hr : u ≠ m.runner) :
    Spares u m (m.replaced next c s) :=
  ⟨state?_replaced_of_ne hn hr, saved?_replaced_of_ne hr⟩

/-- So does a switch. -/
theorem spares_switched (hn : u ≠ next) (hr : u ≠ m.runner) : Spares u m (m.switched next c log) :=
  ⟨state?_switched_of_ne hn hr, saved?_switched_of_ne hr⟩

/-- A thread that enters spares everybody else. -/
theorem spares_entered (hu : u ≠ tid) : Spares u m (m.entered p tid c) :=
  ⟨state?_entered_of_ne hu, saved?_entered_of_ne hu⟩

variable [Context C] {arb : Arbiter C σ} {answer : Option (Resume C)}

/-- **What a section with this answer may do to the slot of `u`**, who does not run. -/
inductive Reaches (arb : Arbiter C σ) (u : ThreadId) (m m' : Ledger C σ) (answer : Option (Resume C)) :
    Prop
  | spared (h : Spares u m m')
  /-- The executor goes on with the saved context of `u`. -/
  | delivered {c : C} (hs : m.table.state? u = some .idle) (hc : m.table.saved? u = some c)
      (hrun : m'.table.state? u = some .running)
      (ha : answer = some ⟨u, .executor, arb.stampExecutor u c⟩)
  /-- The executor is gone, and `u` runs as soon as somebody takes the role. -/
  | appointed {c : C} (hs : m.table.state? u = some .idle) (hc : m.table.saved? u = some c)
      (hr : m'.runner = u) (he : m'.executor = .nobody) (hc' : m'.table.saved? u = some c)
      (ha : ∀ r, answer = some r → r.role ≠ .executor)

/-- An earlier part of the section that spares the slot does not matter. -/
theorem Reaches.of_spares (h : Spares u m n) (h' : Reaches arb u n m' answer) :
    Reaches arb u m m' answer := by
  cases h' with
  | spared h' => exact .spared (h.trans h')
  | delivered hs hc hrun ha => exact .delivered (h.state_eq ▸ hs) (h.saved_eq ▸ hc) hrun ha
  | appointed hs hc hr he hc' ha => exact .appointed (h.state_eq ▸ hs) (h.saved_eq ▸ hc) hr he hc' ha

end Ledger

/-! ## The sections of the handlers -/

namespace Arbiter

open Critical Ledger

variable {C σ α : Type} [Context C] {arb : Arbiter C σ} {m m' : Ledger C σ} {tid u : ThreadId} {c c' : C}

/-- The rest of an arrival reaches `u` only by making it the runner. -/
theorem Settles.reaches {a : Arrival C} (hb : m.table.Balanced m.captured m.runner) (hu : u ≠ m.runner)
    (ho : Settles arb tid m (.ok a m')) : Reaches arb u m m' a.answer := by
  cases ho with
  | @paid d d' x next s l howes he hn hr hd ha hnext hx =>
    rcases eq_or_ne u next with rfl | hne
    · refine .delivered hnext hx ?_ rfl
      exact Table.state?_save.trans (state?_replaced_next (s := s) (hb.ne_runner_of_idle hnext) hnext)
    · refine .spared (Spares.withSaved ?_ hne)
      exact (spares_replaced s hne hu).trans (.of_table rfl)
  | took howes he hr hx => exact .spared (Spares.withSaved (.of_table rfl) hu)
  | waits => exact .spared (.refl u m)

/-- An arrival of another thread does the same. -/
theorem Arrives.reaches {a : Arrival C} (hb : m.table.Balanced m.captured m.runner)
    (hu : u ≠ m.runner) (hut : u ≠ tid) (ho : Arrives arb tid c m (.ok a m')) :
    Reaches arb u m m' a.answer := by
  cases ho with
  | returned => exact .spared (Spares.withSaved (.of_table rfl) hut)
  | joined hs hset =>
    refine Reaches.of_spares (spares_entered hut) (hset.reaches (entered_balanced hb _ c hs) ?_)
    change u ≠ if m.captured = 0 then tid else m.runner
    split
    · exact hut
    · exact hu

/-- So does a look, unless it is that of `u`, whose call has been left to it. -/
theorem Looks.reaches {a : Arrival C} (hu : u ≠ m.runner) (hut : m.table.Outside u → u ≠ tid)
    (ho : Looks arb tid m (.ok a m')) : Reaches arb u m m' a.answer := by
  cases ho with
  | released hs hc =>
    refine .spared (Spares.withSaved (.of_table rfl) ?_)
    rintro rfl
    exact hut hs rfl
  | took hs hne he hr hx => exact .spared (Spares.withSaved (.of_table rfl) hu)
  | waits => exact .spared (.of_table rfl)

/-- A departure reaches `u` by making it the runner. -/
theorem Departs.reaches {r : Resume C} (hb : m.table.Balanced m.captured m.runner) (hu : u ≠ m.runner)
    (ho : Departs arb tid c m (.ok r m')) : Reaches arb u m m' (some r) := by
  cases ho with
  | @shipped d x next s log he hr hne hn ha hnext hx =>
    rcases eq_or_ne u next with rfl | hun
    · refine .delivered hnext hx ?_ rfl
      exact Table.state?_save.trans (state?_replaced_next (s := s) (hb.ne_runner_of_idle hnext) hnext)
    · refine .spared (Spares.withSaved ?_ hun)
      exact (spares_replaced s hun hu).trans (.of_table rfl)
  | @handedOver d next s log he hr htid hn ha hnext =>
    have hut : u ≠ tid := hr ▸ hu
    rcases eq_or_ne u next with rfl | hun
    · obtain ⟨x, hx⟩ := hb.saved u .idle hnext (by decide)
      refine .appointed hnext hx rfl rfl ?_ fun r hr => Option.some.inj hr ▸ nofun
      exact (saved?_withSaved_of_ne hut).trans ((saved?_replaced_of_ne (s := s) hu).trans hx)
    · refine .spared (Spares.withSaved ?_ hut)
      exact (spares_replaced s hun hu).trans (.of_table rfl)
  | owed he hr htid hn ho => exact .spared (Spares.withSaved (.of_table rfl) (hr ▸ hu))

/-- So does a switch. -/
theorem Switches.reaches {r : Resume C} (hu : u ≠ m.runner) (ho : Switches arb tid c m (.ok r m')) :
    Reaches arb u m m' (some r) := by
  cases ho with
  | @switched x log hcheck hr hx =>
    obtain ⟨-, -, hne, hnext⟩ := of_checkSwitch hcheck
    rcases eq_or_ne u (arb.decision c) with rfl | hun
    · exact .delivered hnext hx (Table.state?_save.trans (state?_switched_next hne hnext)) rfl
    · exact .spared ((spares_switched hun hu).withSaved hun)

theorem Starts.spares (ho : Starts arb tid c m (.ok c' m')) : Spares u m m' := by
  cases ho with
  | started => exact .of_table rfl

omit [Context C] in
theorem Finishes.spares (hb : m.table.Balanced m.captured m.runner) (hu : u ≠ m.runner)
    (ho : Finishes arb tid m (.ok () m')) : Spares u m m' := by
  cases ho with
  | outside => exact .of_table rfl
  | last hs hn he =>
    have hut : u ≠ tid := hb.runner_eq_of_running hs ▸ hu
    exact ⟨Table.state?_mark_of_ne hut, Table.saved?_mark⟩

omit [Context C] in
/-- Plans are made beside the slots. -/
theorem spares_planUnit (arb : Arbiter C σ) (cu : CodeUnit) (m : Ledger C σ) :
    Spares u m (left (arb.planUnit cu m)) := by
  obtain ⟨e, h⟩ | ⟨p, log, h⟩ := arb.planUnit_apply cu m <;> rw [h] <;> exact .of_table rfl

/-! ## Requests -/

omit [Context C] in
/-- A request about a saved context that may be edited is granted. -/
theorem editContext_of_open {s : ThreadState} (f : C → α × C) (hs : m.table.state? u = some s)
    (hopen : s.hasOpenContext) (hc : m.table.saved? u = some c) :
    editContext u f m = .ok (f c).1 (m.withSaved u (f c).2) := by
  rw [editContext, bind_of_ok (stateOf_of_some hs), hopen, if_neg (by decide)]
  dsimp only
  rw [bind_of_ok (contextOf_of_saved hc), bind_of_ok (modifyContext_of_saved hc _)]
  rfl

omit [Context C] in
/-- A request about a saved context reaches no other slot. -/
theorem Edits.spares_of_ne {r : EStateM.Result Fault (Ledger C σ) α} (hu : u ≠ tid)
    (ho : Edits tid m r) : Spares u m (left r) := by
  cases ho with
  | refused => exact .refl u m
  | edited => exact spares_withSaved hu

omit [Context C] in
/-- None reaches the slot of a thread that runs or is outside the program. -/
theorem Edits.spares {r : EStateM.Result Fault (Ledger C σ) α} {s : ThreadState}
    (hs : m.table.state? u = some s) (hclosed : s.hasOpenContext = false) (ho : Edits tid m r) :
    Spares u m (left r) := by
  cases ho with
  | refused => exact .refl u m
  | edited ht hopen =>
    refine spares_withSaved ?_
    rintro rfl
    cases hs.symm.trans ht
    exact Bool.false_ne_true (hclosed.symm.trans hopen)

omit [Context C] in
theorem Blocks.spares {r : EStateM.Result Fault (Ledger C σ) Unit} {s : ThreadState}
    (hs : m.table.state? u = some s) (hclosed : s.hasOpenContext = false) (ho : Blocks tid m r) :
    Spares u m (left r) := by
  cases ho with
  | unknown => exact .refl u m
  | refused => exact .refl u m
  | last => exact .refl u m
  | blocked ht =>
    refine ⟨Table.state?_mark_of_ne ?_, Table.saved?_mark⟩
    rintro rfl
    cases hs.symm.trans ht
    nomatch hclosed

omit [Context C] in
theorem Unblocks.spares {r : EStateM.Result Fault (Ledger C σ) Unit} {s : ThreadState}
    (hs : m.table.state? u = some s) (hclosed : s.hasOpenContext = false) (ho : Unblocks tid m r) :
    Spares u m (left r) := by
  cases ho with
  | unknown => exact .refl u m
  | refused => exact .refl u m
  | unblocked ht =>
    refine ⟨Table.state?_mark_of_ne ?_, Table.saved?_mark⟩
    rintro rfl
    cases hs.symm.trans ht
    nomatch hclosed

/-- **No request reaches the slot of a thread that runs or is outside the program.** -/
theorem spares_request (arb : Arbiter C σ) {s : ThreadState} (hs : m.table.state? u = some s)
    (hclosed : s.hasOpenContext = false) {call : Call C} (hcall : call.isHandler = false) :
    Spares u m (left (arb.perform call m)) := by
  cases call with
  | start => nomatch hcall
  | finish => nomatch hcall
  | arrive => nomatch hcall
  | depart => nomatch hcall
  | switch => nomatch hcall
  | plan => nomatch hcall
  | armBlock =>
    refine left_answer (Spares u m) ?_
    rw [armBlock_apply]
    split
    · exact .refl u m
    · exact .of_table rfl
  | block tid => exact left_answer (Spares u m) ((arb.block_outcome tid m).spares hs hclosed)
  | unblock tid => exact left_answer (Spares u m) ((arb.unblock_outcome tid m).spares hs hclosed)
  | readRegister tid r => exact left_answer (Spares u m) ((editContext_outcome tid _ m).spares hs hclosed)
  | writeRegister tid r v =>
    exact left_answer (Spares u m) ((editContext_outcome tid _ m).spares hs hclosed)
  | copyContext tid => exact left_answer (Spares u m) ((editContext_outcome tid _ m).spares hs hclosed)
  | replaceContext tid c =>
    exact left_answer (Spares u m) ((editContext_outcome tid _ m).spares hs hclosed)

end Arbiter

/-! ## Moves -/

namespace Crew

open Critical Arbiter Ledger

variable {C σ : Type} {w w' : Crew C σ} {m : Ledger C σ} {tid u : ThreadId} {p : Place C} {mv : Move C σ}

/-- The answer that a move leaves is that of its caller. -/
theorem answer_put (h : mv.caller = some tid) : (w.put m tid p).answer mv = p.last := by
  rw [answer, h]
  exact congrArg Place.last (place_put_self ..)

theorem answer_of_caller_none (h : mv.caller = none) : w.answer mv = none := by
  rw [answer, h]
  rfl

variable [Context C] {arb : Arbiter C σ}

/-- **No move but a request reaches the slot of a thread that does not run**, other than by making it the
runner; if it is outside the program, it is to wait for its uncapture, and not to look. -/
theorem Moves.reaches (hw : w.Stationed) (hu : u ≠ w.ledger.runner)
    (hout : w.ledger.table.Outside u → mv ≠ .look u ∧ ∃ b, w.place u = .inside b)
    (hmv : mv.isRequest = false) (hm : Moves arb w mv w') :
    Reaches arb u w.ledger w'.ledger (w'.answer mv) := by
  have hb := hw.sound.balanced
  cases hm with
  | start hp ho => exact .spared (ho ▸ arb.startThread_outcome _ _ w.ledger : Starts ..).spares
  | @arrive tid c last a m hp hg ho =>
    have ho : Arrives arb tid c w.ledger (.ok a m) := ho ▸ arrive_outcome hb
    have hut : u ≠ tid := by
      rintro rfl
      cases ho with
      | returned hs => exact hu (hb.runner_eq_of_running hs)
      | joined hs =>
        obtain ⟨b, hb⟩ := (hout hs).2
        cases hp.symm.trans hb
    rw [answer_put rfl, Arrival.last_place]
    exact ho.reaches hb hu hut
  | depart hp hg ho =>
    rw [answer_put rfl, Resume.last_place]
    exact (ho ▸ depart_outcome hb : Departs ..).reaches hb hu
  | switch hp hg ho =>
    rw [answer_put rfl, Resume.last_place]
    exact (ho ▸ switch_outcome hb : Switches ..).reaches hu
  | finish hp hg ho => exact .spared ((ho ▸ arb.endThread_outcome _ w.ledger : Finishes ..).spares hb hu)
  | compute hp hg => exact .spared (.refl u _)
  | wake hp hpermit => exact .spared (.of_table rfl)
  | @look tid a m hp ho =>
    rw [answer_put rfl, Arrival.last_place]
    refine (ho ▸ lookAgain_outcome hb : Looks ..).reaches hu fun houtside => ?_
    rintro rfl
    exact (hout houtside).1 rfl
  | plan => exact .spared (spares_planUnit arb _ w.ledger)
  | request => nomatch hmv
  | edit => nomatch hmv
  | think => exact .spared (.of_table rfl)

end Crew

end SoleRunner
