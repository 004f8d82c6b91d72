import SoleRunner.Proofs.Simulation.Beats

/-!
# Proofs/Simulation/Recorded — what a beat adds to the history

In a beat a thread records nothing, or one thing about the place of the cursor in its hand; `Records` lists
what that can be, and what the thread must be doing for it.  This holds of beats that fail, too: an arrival
and an exit are recorded before the arbiter is called (`records_of_beat`).
-/

namespace SoleRunner.Simulation

variable {σ π : Type} {w : World σ π} {machine : Machine σ π} {me : ThreadId} {c : Cursor} {x : Worker}

namespace Machine

/-- **What a thread can record in a beat.** -/
inductive Records (machine : Machine σ π) (w : World σ π) : Worker → Act → Prop
  | arrived {c : Cursor} : Records machine w ⟨c, .due .arrival⟩ .arrived
  | decided {c : Cursor} {next : ThreadId} {s : σ} {p : π} (hrole : machine.role c ≠ 0)
      (hpolicy : machine.policy c.owner w.ledger.schedulerState w.policyState = (some next, s, p))
      (hhook : machine.unhooked c = false) : Records machine w ⟨c, .going⟩ (.decided next)
  | computed {c : Cursor} (hrole : machine.role c ≠ 0) (hhook : machine.unhooked c) :
      Records machine w ⟨c, .going⟩ .computed
  | syscalled {c : Cursor} (hrole : machine.role c = 0) : Records machine w ⟨c, .going⟩ .syscalled
  | ended {c : Cursor} : Records machine w ⟨c, .due .finish⟩ .ended

/-- A hook that is due comes before the operation. -/
theorem not_going_of_hook (hop : machine.nextOp c ≠ none) (hhook : machine.unhooked c = false) :
    (machine.round me c w).1.stage ≠ .going := by
  unfold round
  split
  next hnil => exact absurd (by rw [nextOp, hnil]; rfl) hop
  next =>
    rw [hhook, if_neg Bool.false_ne_true, decide]
    obtain ⟨answer, s, p, hpolicy⟩ : ∃ answer s p,
        machine.policy c.owner w.ledger.schedulerState w.policyState = (answer, s, p) := ⟨_, _, _, rfl⟩
    rw [hpolicy]
    intro hgoing
    cases answer <;> cases hgoing

/-- A round records nothing, or a decision, a computation or a system call. -/
theorem records_of_round : (machine.round me c w).2.history = w.history ∨
    ∃ act, Records machine w ⟨c, .going⟩ act ∧
      (machine.round me c w).2.history = w.history.push (⟨me, c.owner, c.pc⟩, act) := by
  have hruns : Runs machine me w ⟨c, .going⟩ (machine.round me c w).1 (machine.round me c w).2 :=
    runs_of_round
  have hhook (hop : machine.nextOp c ≠ none) (hdue : machine.unhooked c = false) :
      (machine.round me c w).1.stage ≠ .going := not_going_of_hook hop hdue
  generalize machine.round me c w = r at hruns hhook
  obtain ⟨x', v⟩ := r
  cases hruns with
  | computes hop hrole =>
    refine .inr ⟨.computed, .computed hrole ?_, rfl⟩
    exact Bool.not_eq_false _ ▸ fun hdue => hhook (hop ▸ nofun) hdue rfl
  | syscalls hop hrole => exact .inr ⟨.syscalled, .syscalled hrole, rfl⟩
  | decides hrole hpolicy hdue => exact .inr ⟨.decided _, .decided hrole hpolicy hdue, rfl⟩
  | _ => exact .inl rfl

/-- **A thread records nothing in a beat, or one of the listed things.** -/
theorem records_of_act (machine : Machine σ π) (me : ThreadId) (x : Worker) (w : World σ π) :
    (World.after (machine.act me x w)).history = w.history ∨
    ∃ act, Records machine w x act ∧ (World.after (machine.act me x w)).history =
      w.history.push (⟨me, x.cursor.owner, x.cursor.pc⟩, act) := by
  obtain ⟨c, stage⟩ := x
  cases stage with
  | due p =>
    change (World.after (machine.call me c p w)).history = _ ∨ ∃ act, _ ∧
      (World.after (machine.call me c p w)).history = _
    cases p with
    | start => exact .inl (call_start ▸ World.history_answered ..)
    | arrival => exact .inr ⟨.arrived, .arrived, call_arrival ▸ World.history_answered ..⟩
    | departure => exact .inl (call_departure ▸ World.history_answered ..)
    | switch => exact .inl (call_switch ▸ World.history_answered ..)
    | finish =>
      obtain ⟨entry, hcall⟩ := call_finish machine me c w
      refine .inr ⟨.ended, .ended, ?_⟩
      rw [hcall]
      cases machine.arbiter.endThread me w.ledger <;> rfl
    | wake =>
      left
      rw [call_wake]
      split
      · exact World.history_answered ..
      · rfl
  | going => exact records_of_round
  | awake =>
    have hact : machine.act me ⟨c, .awake⟩ w =
        w.answered (.ofArrival c) (machine.arbiter.lookAgain me w.ledger) := answer_apply ..
    exact .inl (hact ▸ World.history_answered ..)
  | _ => exact .inl rfl

/-- **A beat adds nothing to the history, or one of the listed things**, whether it succeeds or fails. -/
theorem records_of_beat (machine : Machine σ π) (i : Nat) (w : World σ π) :
    (World.after (machine.beat i w)).history = w.history ∨
    ∃ x act, w.workers[i]? = some x ∧ Records machine w x act ∧
      (World.after (machine.beat i w)).history =
        w.history.push (⟨.ofIndex i, x.cursor.owner, x.cursor.pc⟩, act) := by
  cases hx : w.workers[i]? with
  | none => exact .inl (by rw [beat_of_none hx]; rfl)
  | some x =>
    have hafter : (World.after (machine.beat i w)).history =
        (World.after (machine.act (.ofIndex i) x w)).history := by
      rw [beat_of_some hx]
      cases machine.act (.ofIndex i) x w <;> rfl
    rw [hafter]
    exact (records_of_act machine (.ofIndex i) x w).imp_right fun ⟨act, hact⟩ => ⟨x, act, rfl, hact⟩

end Machine

end SoleRunner.Simulation
