import SoleRunner.Arbiter.Audit
import SoleRunner.Proofs.Answers
import SoleRunner.Proofs.Crew
import SoleRunner.Proofs.StateChanges

/-!
# Proofs/Emptied — what the exit of the only captured thread leaves behind

When the only captured thread exits while it runs, the arbiter is to be empty again.  The exit resets the
runner, the executor, the captured count and the debt, and takes its own thread out of the program; nobody
else is idle or runs then.  But it looks neither at blocked threads nor at an armed block.  These are all
that one can tell the arbiter from a new one by, and one call is enough to do so
(`Crew.empty_after_exit_iff`).
-/

namespace SoleRunner

/-- The state of a thread after the only captured one has exited. -/
def ThreadState.afterExit : ThreadState → ThreadState
  | .blocked => .blocked
  | .idle | .running | .uncaptured => .uncaptured

namespace ThreadState

theorem afterExit_eq_uncaptured_iff {s : ThreadState} : s.afterExit = .uncaptured ↔ s ≠ .blocked := by
  cases s <;> decide

theorem afterExit_eq_blocked_iff {s : ThreadState} : s.afterExit = .blocked ↔ s = .blocked := by
  cases s <;> decide

theorem map_afterExit_eq_iff {l : List ThreadState} :
    l.map afterExit = List.replicate l.length .uncaptured ↔ .blocked ∉ l := by
  rw [List.map_eq_replicate_iff]
  constructor
  · exact fun h hb => afterExit_eq_uncaptured_iff.mp (h _ hb) rfl
  · exact fun h s hs => afterExit_eq_uncaptured_iff.mpr fun e => h (e ▸ hs)

theorem blocked_mem_map_afterExit {l : List ThreadState} : .blocked ∈ l.map afterExit ↔ .blocked ∈ l := by
  simp only [List.mem_map, afterExit_eq_blocked_iff, exists_eq_right]

end ThreadState

/-- Only threads look again here that have arrived before. -/
def Event.SelfContained {C σ : Type} (es : List (Event C σ)) : Prop :=
  ∀ pre tid post, es = pre ++ .lookAgain tid :: post → ∃ c, .call (.arrive tid c) ∈ pre

theorem Event.selfContained_call {C σ : Type} (call : Call C) :
    SelfContained [(.call call : Event C σ)] := by
  intro pre tid post h
  have hmem : Event.lookAgain tid ∈ [(.call call : Event C σ)] := h ▸ List.mem_append_cons_self
  nomatch List.mem_singleton.mp hmem

namespace Arbiter

open Critical Ledger

variable {C σ : Type} {arb : Arbiter C σ} {m n : Ledger C σ} {tid u : ThreadId}

/-! ## The exit -/

/-- A thread that runs is the only captured one where its exit goes through. -/
theorem of_endThread_running (hs : m.table.state? tid = some .running)
    (h : arb.endThread tid m = .ok () n) :
    m.captured = 1 ∧ ∃ log, n = (m.vacated tid).ended arb.scheduler tid log := by
  have ho := arb.endThread_outcome tid m
  rw [h] at ho
  cases ho with
  | outside hout => nomatch hs.symm.trans hout
  | last _ hn he => exact ⟨hn, _, rfl⟩

/-- Nobody but the exiting thread was idle or ran. -/
theorem state?_vacated (hb : m.table.Balanced m.captured m.runner) (hs : m.table.state? tid = some .running)
    (hn : m.captured = 1) (u : ThreadId) :
    (m.vacated tid).table.state? u = (m.table.state? u).map .afterExit := by
  obtain ⟨hidle, hrunning⟩ := (hb.markLast hs hn).captured_eq_zero_iff.mp rfl u
  change (m.table.mark tid .uncaptured).state? u = _
  rcases eq_or_ne u tid with rfl | hu
  · rw [Table.state?_mark_self hs, hs]
    rfl
  · rw [Table.state?_mark_of_ne hu] at hidle hrunning ⊢
    match hst : m.table.state? u with
    | none | some .blocked | some .uncaptured => rfl
    | some .idle => exact absurd hst hidle
    | some .running => exact absurd hst hrunning

/-- **What can be seen after the exit.** -/
theorem snapshot_of_exit (hb : m.table.Balanced m.captured m.runner)
    (hs : m.table.state? tid = some .running) (h : arb.endThread tid m = .ok () n) (s : σ) :
    n.snapshot = { (fresh m.table.capacity s : Ledger C σ).snapshot with
      states := m.table.states.map .afterExit, armed := m.armed } := by
  obtain ⟨hn, log, rfl⟩ := of_endThread_running hs h
  have hstates := Table.states_eq_map hb.capacity_le (Table.capacity_mark ..)
    (state?_vacated hb hs hn)
  rw [← hstates]
  rfl

/-! ## Ledgers that look new -/

/-- After the exit, only blocked threads and an armed block keep a ledger from looking new. -/
theorem looks_fresh_iff {l : List ThreadState} {k : Nat} (hl : l.length = k) (armed : Bool) (s : σ) :
    { (fresh k s : Ledger C σ).snapshot with states := l.map .afterExit, armed } =
        (fresh k s : Ledger C σ).snapshot ↔ armed = false ∧ .blocked ∉ l := by
  have hstates : l.map .afterExit = (fresh k s : Ledger C σ).snapshot.states ↔ .blocked ∉ l := by
    rw [← ThreadState.map_afterExit_eq_iff, hl, ← Table.states_ofCapacity]
    rfl
  rw [← hstates, Snapshot.mk.injEq]
  simp only [true_and, and_comm]
  rfl

/-- **A sound ledger that looks new answers like a new one.** -/
theorem alike_fresh (hs : m.Sound) {k : Nat} (hk : k ≤ Config.capacityLimit)
    (h : m.snapshot = (fresh k m.schedulerState : Ledger C σ).snapshot) :
    m.Alike (· = .nobody) (fresh k m.schedulerState) := by
  obtain ⟨hstates, hrunner, hexecutor, hcaptured, howes, harmed⟩ := Snapshot.mk.inj h
  have hstate (u : ThreadId) : m.table.state? u = (Table.ofCapacity k : Table C).state? u := by
    rw [← Table.states_getElem?, hstates, ← Table.states_getElem?]
    rfl
  refine ⟨⟨?_, hstate, ?_, fun u hu => ?_⟩, hrunner, hexecutor, hcaptured, howes, harmed, rfl, hrunner, rfl⟩
  · rw [← Table.length_states, hstates, Table.length_states]
  · rintro u rfl
    have hnew := (Table.balanced_ofCapacity (C := C) hk).nobody_unknown
    rw [Table.saved?_of_unknown hs.balanced.nobody_unknown, fresh, Table.saved?_of_unknown hnew]
  · exact absurd ((Table.inside_congr (hstate u)).mp hu) Table.not_inside_ofCapacity

/-! ## Calls that tell -/

variable [Context C]

theorem answer_armBlock (arb : Arbiter C σ) (m : Ledger C σ) :
    arb.answer m (.call .armBlock) =
      some (if m.armed then .error (.violation .alreadyArmed) else .ok .done) := by
  change some (Critical.answer ((armBlock >>= fun _ => pure Reply.done) m)) = _
  rw [bind_apply, armBlock_apply]
  cases m.armed <;> rfl

theorem answer_unblock_ok_iff :
    arb.answer m (.call (.unblock u)) = some (.ok .done) ↔ m.table.state? u = some .blocked := by
  change some (Critical.answer ((arb.unblock u >>= fun _ => pure Reply.done) m)) = _ ↔ _
  have ho := arb.unblock_outcome u m
  rw [bind_apply]
  generalize arb.unblock u m = r at ho
  cases ho with
  | unknown hs => exact iff_of_false nofun fun hb => nomatch hs.symm.trans hb
  | refused hs hne => exact iff_of_false nofun fun hb => hne (Option.some.inj (hs.symm.trans hb))
  | unblocked hs => exact iff_of_true rfl hs

/-- Arming a block, and putting threads back into the pool, tells whether an arbiter was used before. -/
theorem of_answers_fresh (hcap : m.table.capacity ≤ ThreadId.nobody.index) {k : Nat} {s : σ}
    (h : ∀ call, arb.answer m (.call call) = arb.answer (fresh k s) (.call call)) :
    m.armed = false ∧ .blocked ∉ m.table.states := by
  constructor
  · have harm := h .armBlock
    rw [answer_armBlock, answer_armBlock] at harm
    exact Bool.eq_false_iff.mpr fun harmed => by simp [harmed, fresh] at harm
  · rw [Table.mem_states_iff hcap]
    rintro ⟨u, hu⟩
    have hnew := answer_unblock_ok_iff.mp ((h (.unblock u)).symm.trans (answer_unblock_ok_iff.mpr hu))
    exact Table.not_inside_ofCapacity (Table.inside_of_state hnew (by decide))

end Arbiter

namespace Crew

open Arbiter

variable {C σ : Type} [Context C] {scheduler : Scheduler C σ} {initial : σ} {config : Config}
  {setup setup' : Setup C σ} {arb : Arbiter C σ} {m n : Ledger C σ} {w : Crew C σ}
  {mvs : List (Move C σ)} {tid : ThreadId}

/-- **What the exit of a running thread empties.**  Whenever a thread of a new arbiter's crew runs, and its
exit goes through, the arbiter looks like a new one, but that blocked threads stay blocked and an armed
block stays armed.  So it looks new exactly if no thread was blocked and no block was armed, and exactly
then it answers any later calls as a new one does with the same scheduler. -/
theorem empty_after_exit_iff (h : create scheduler initial config setup = .ok (arb, m) setup')
    (hrun : (new m).run arb mvs = some w) (hs : w.ledger.table.state? tid = some .running)
    (hend : arb.endThread tid w.ledger = .ok () n) :
    let empty : Ledger C σ := .fresh config.capacity n.schedulerState
    n.snapshot = { empty.snapshot with
        states := w.ledger.table.states.map .afterExit, armed := w.ledger.armed } ∧
      (n.snapshot = empty.snapshot ↔ w.ledger.armed = false ∧ .blocked ∉ w.ledger.table.states) ∧
      ((∀ es, Event.SelfContained es → arb.answers n es = arb.answers empty es) ↔
        w.ledger.armed = false ∧ .blocked ∉ w.ledger.table.states) := by
  intro empty
  obtain ⟨es, hes⟩ := follow_of_run hrun
  have hsound : w.ledger.Sound := hes ▸ sound_follow h es
  have hsound' : n.Sound := by
    have ho := arb.endThread_outcome tid w.ledger
    rw [hend] at ho
    exact ho.sound hsound
  obtain ⟨hconfig, -, -, hm⟩ := of_create_ok h
  have hlimit := (config.problem?_eq_none_iff.mp hconfig).2
  have hcapacity : w.ledger.table.capacity = config.capacity := by
    rw [hes, new, arb.capacity_follow (sound_of_create h) es, hm]
    exact Table.capacity_ofCapacity _
  have hsnapshot := snapshot_of_exit hsound.balanced hs hend n.schedulerState
  rw [hcapacity] at hsnapshot
  have hlooks :
      n.snapshot = empty.snapshot ↔ w.ledger.armed = false ∧ .blocked ∉ w.ledger.table.states := by
    rw [hsnapshot]
    exact looks_fresh_iff ((Table.length_states _).trans hcapacity) _ _
  refine ⟨hsnapshot, hlooks, fun hanswers => ?_, fun hclean es hself => ?_⟩
  · obtain ⟨harmed, hblocked⟩ := of_answers_fresh hsound'.balanced.capacity_le fun call =>
      (List.cons.inj (hanswers [.call call] (Event.selfContained_call call))).1
    have hstates : n.table.states = w.ledger.table.states.map .afterExit :=
      congrArg Snapshot.states hsnapshot
    rw [hstates, ThreadState.blocked_mem_map_afterExit] at hblocked
    exact ⟨(congrArg Snapshot.armed hsnapshot).symm.trans harmed, hblocked⟩
  · exact arb.answers_eq_of_known (alike_fresh hsound' hlimit (hlooks.mpr hclean))
      fun pre tid post he => .inr (hself pre tid post he)

/-- The second of two threads is blocked, and the first one arms a block, makes a system call alone and
exits: the second thread stays blocked, and the block armed. -/
theorem empty_after_exit_armed :
    ∃ (w : Crew Cursor Rotation) (n : Ledger Cursor Rotation),
      (new (.fresh 2 {})).run twoSlots [.start ⟨0⟩ (.start ⟨0⟩), .arrive ⟨0⟩, .start ⟨1⟩ (.start ⟨1⟩),
        .arrive ⟨1⟩, .request (.block ⟨1⟩), .request .armBlock, .depart ⟨0⟩] = some w ∧
      w.ledger.table.state? ⟨0⟩ = some .running ∧ twoSlots.endThread ⟨0⟩ w.ledger = .ok () n ∧
      n.snapshot = ⟨[.uncaptured, .blocked], .nobody, .nobody, 0, false, true⟩ ∧
      ¬ ∀ es, Event.SelfContained es →
        twoSlots.answers n es = twoSlots.answers (.fresh 2 n.schedulerState) es := by
  obtain ⟨setup, h⟩ := create_twoSlots
  obtain ⟨w, n, hrun, hs, hend, hstates, harmed⟩ :
    ∃ (w : Crew Cursor Rotation) (n : Ledger Cursor Rotation),
      (new (.fresh 2 {})).run twoSlots [.start ⟨0⟩ (.start ⟨0⟩), .arrive ⟨0⟩, .start ⟨1⟩ (.start ⟨1⟩),
        .arrive ⟨1⟩, .request (.block ⟨1⟩), .request .armBlock, .depart ⟨0⟩] = some w ∧
      w.ledger.table.state? ⟨0⟩ = some .running ∧ twoSlots.endThread ⟨0⟩ w.ledger = .ok () n ∧
      w.ledger.table.states = [.running, .blocked] ∧ w.ledger.armed = true :=
    ⟨_, _, rfl, rfl, rfl, rfl, rfl⟩
  obtain ⟨hsnapshot, -, hanswers⟩ := empty_after_exit_iff h hrun hs hend
  rw [hstates, harmed] at hsnapshot
  refine ⟨w, n, hrun, hs, hend, hsnapshot, fun hall => ?_⟩
  nomatch harmed.symm.trans (hanswers.mp hall).1

end Crew

end SoleRunner
