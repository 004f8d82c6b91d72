import SoleRunner.Proofs.AnyRun

/-!
# Proofs/Alike — what no step of a critical section can tell apart

A ledger keeps more than a call can find out: counters and a log, permits, and the contexts of threads that
went out of the program.  Two ledgers are `Alike` if they agree on all the rest, which includes the saved
contexts of the threads in a set `K` that everybody inside belongs to.  A section is `Blind` if it answers
the same from alike ledgers, and leaves alike ones.  Each step that sections are made of is blind, if the
threads whose contexts it reads are in `K`, and so is each sequence of blind steps.
-/

namespace SoleRunner

/-- **Two tables that agree** on the states of all threads, and on the saved contexts of those in `K`, where
everybody inside is in `K`. -/
structure Table.Alike {C : Type} (K : ThreadId → Prop) (t t' : Table C) : Prop where
  capacity_eq : t.capacity = t'.capacity
  state?_eq : ∀ u, t.state? u = t'.state? u
  saved?_eq : ∀ u, K u → t.saved? u = t'.saved? u
  known : ∀ u, t.Inside u → K u

/-- **Two ledgers that no call can tell apart**, as long as nobody outside `K` looks again. -/
structure Ledger.Alike {C σ : Type} (K : ThreadId → Prop) (m n : Ledger C σ) : Prop where
  table : m.table.Alike K n.table
  runner_eq : m.runner = n.runner
  executor_eq : m.executor = n.executor
  captured_eq : m.captured = n.captured
  owes_eq : m.owesUncapture = n.owesUncapture
  armed_eq : m.armed = n.armed
  schedulerState_eq : m.schedulerState = n.schedulerState
  runner_known : K m.runner
  nobody_known : K .nobody

namespace Table.Alike

variable {C : Type} {K : ThreadId → Prop} {t t' : Table C} {tid : ThreadId} {s : ThreadState} {c : C}

/-- A mark keeps tables alike, if it puts nobody inside who is not in `K`. -/
theorem mark (h : t.Alike K t') (hs : s = .uncaptured ∨ K tid) :
    (t.mark tid s).Alike K (t'.mark tid s) where
  capacity_eq := by rw [capacity_mark, capacity_mark, h.capacity_eq]
  state?_eq u := by rw [state?_mark, state?_mark, h.state?_eq]
  saved?_eq u hu := by rw [saved?_mark, saved?_mark, h.saved?_eq u hu]
  known u hu := by
    obtain ⟨st, hst, hne⟩ := hu
    rcases eq_or_ne u tid with rfl | hut
    · rw [state?_mark, if_pos rfl, Option.map_eq_some_iff] at hst
      obtain ⟨-, -, rfl⟩ := hst
      exact hs.resolve_left hne
    · exact h.known u ⟨st, (state?_mark_of_ne hut).symm.trans hst, hne⟩

/-- Saving the same context in both keeps them alike. -/
theorem save (h : t.Alike K t') (tid : ThreadId) (c : C) : (t.save tid c).Alike K (t'.save tid c) where
  capacity_eq := by rw [capacity_save, capacity_save, h.capacity_eq]
  state?_eq u := by rw [state?_save, state?_save, h.state?_eq]
  saved?_eq u hu := by rw [saved?_save, saved?_save, h.saved?_eq u hu, h.state?_eq]
  known u hu := h.known u ((inside_congr state?_save).mp hu)

/-- Whoever's context is saved may be looked at from then on. -/
theorem save_known (h : t.Alike K t') (tid : ThreadId) (c : C) :
    (t.save tid c).Alike (fun u => K u ∨ u = tid) (t'.save tid c) where
  capacity_eq := (h.save tid c).capacity_eq
  state?_eq := (h.save tid c).state?_eq
  saved?_eq u hu := by
    rcases eq_or_ne u tid with rfl | hut
    · rw [saved?_save, saved?_save, if_pos rfl, if_pos rfl, h.state?_eq]
    · exact (h.save tid c).saved?_eq u (hu.resolve_right hut)
  known u hu := .inl ((h.save tid c).known u hu)

end Table.Alike

namespace Critical

open Ledger

variable {C σ α β : Type} {K : ThreadId → Prop} {m n : Ledger C σ} {tid : ThreadId}
  {s old new : ThreadState} {c : C}

/-- **The same answer, and alike ledgers.** -/
inductive Agree (K : ThreadId → Prop) :
    EStateM.Result Fault (Ledger C σ) α → EStateM.Result Fault (Ledger C σ) α → Prop
  | ok (a : α) {m n : Ledger C σ} (h : m.Alike K n) : Agree K (.ok a m) (.ok a n)
  | error (e : Fault) {m n : Ledger C σ} (h : m.Alike K n) : Agree K (.error e m) (.error e n)

/-- **A section that does not tell alike ledgers apart.** -/
def Blind (K : ThreadId → Prop) (x : Critical C σ α) : Prop :=
  ∀ m n : Ledger C σ, m.Alike K n → Agree K (x m) (x n)

/-! ## Sequences -/

/-- **What follows on two outcomes that agree** agrees, too, if it is blind. -/
theorem Agree.bind {x : Critical C σ α} {f : α → Critical C σ β} (hx : Agree K (x m) (x n))
    (hf : ∀ a, Blind K (f a)) : Agree K ((x >>= f) m) ((x >>= f) n) := by
  rw [bind_apply, bind_apply]
  generalize x m = r, x n = r' at hx
  cases hx with
  | ok a h => exact hf a _ _ h
  | error e h => exact .error e h

/-- A sequence of blind sections is blind. -/
theorem Blind.bind {x : Critical C σ α} {f : α → Critical C σ β} (hx : Blind K x)
    (hf : ∀ a, Blind K (f a)) : Blind K (x >>= f) := fun m n h => (hx m n h).bind hf

/-- A section may read the ledger if what it goes on with agrees. -/
theorem blind_get {f : Ledger C σ → Critical C σ α}
    (hf : ∀ m n, m.Alike K n → Agree K (f m m) (f n n)) : Blind K (get >>= f) := hf

theorem blind_pure (a : α) : Blind K (pure a : Critical C σ α) := fun _ _ h => .ok a h

theorem blind_throw (e : Fault) : Blind K (throw e : Critical C σ α) := fun _ _ h => .error e h

/-- A choice is blind if it is made alike and both ways are blind. -/
theorem blind_ite {p : Prop} [Decidable p] {x y : Critical C σ α} (hx : Blind K x) (hy : Blind K y) :
    Blind K (if p then x else y) := by
  split
  · exact hx
  · exact hy

/-! ## Single steps -/

/-- A change of the ledger is blind if it keeps ledgers alike. -/
theorem blind_modify {f : Ledger C σ → Ledger C σ} (hf : ∀ m n, m.Alike K n → (f m).Alike K (f n)) :
    Blind K (modify f : Critical C σ Unit) := fun m n h => .ok () (hf m n h)

/-- Whether an expectation holds is settled before the ledger is looked at. -/
theorem blind_expect (p : Prop) [Decidable p] (check : Check) :
    Blind K (expect p check : Critical C σ Unit) := blind_ite (blind_pure ()) (blind_throw _)

/-- So is what an answer is, or its fault. -/
theorem blind_ofExcept (x : Except Fault α) : Blind K (ofExcept x : Critical C σ α) := by
  cases x with
  | ok a => exact blind_pure a
  | error e => exact blind_throw e

/-- The log is none of the things that alike ledgers agree on. -/
theorem blind_note (level : Log.Level) (text : String) : Blind K (note level text : Critical C σ Unit) :=
  blind_modify fun _ _ h => { h with }

/-- The counters are none of them. -/
theorem blind_tally (f : Stats → Stats) : Blind K (tally f : Critical C σ Unit) :=
  blind_modify fun _ _ h => { h with }

/-- The permits are none of them. -/
theorem blind_post (tid : ThreadId) : Blind K (post tid : Critical C σ Unit) :=
  blind_modify fun _ _ h => { h with }

theorem blind_tell (f : σ → σ) : Blind K (tell f : Critical C σ Unit) :=
  blind_modify fun _ _ h => { h with schedulerState_eq := congrArg f h.schedulerState_eq }

theorem blind_setExecutor (tid : ThreadId) : Blind K (setExecutor tid : Critical C σ Unit) :=
  blind_modify fun _ _ h => { h with executor_eq := rfl }

/-- The runner has to be known, since its context will be read. -/
theorem blind_setRunner (htid : K tid) : Blind K (setRunner tid : Critical C σ Unit) :=
  blind_modify fun _ _ h => { h with runner_eq := rfl, runner_known := htid }

theorem blind_setCaptured (k : Nat) : Blind K (setCaptured k : Critical C σ Unit) :=
  blind_modify fun _ _ h => { h with captured_eq := rfl }

theorem blind_setOwed (b : Bool) : Blind K (setOwed b : Critical C σ Unit) :=
  blind_modify fun _ _ h => { h with owes_eq := rfl }

theorem blind_setArmed (b : Bool) : Blind K (setArmed b : Critical C σ Unit) :=
  blind_modify fun _ _ h => { h with armed_eq := rfl }

/-! ## Steps at the table -/

/-- A section that goes on with the state of a thread knows the thread, if it is inside. -/
theorem blind_stateOf {f : ThreadState → Critical C σ α}
    (hf : ∀ s, (s ≠ .uncaptured → K tid) → Blind K (f s)) : Blind K (stateOf tid >>= f) := by
  intro m n h
  have heq := h.table.state?_eq tid
  cases hs : n.table.state? tid with
  | none =>
    rw [bind_of_error (stateOf_of_none (heq.trans hs)), bind_of_error (stateOf_of_none hs),
      h.table.capacity_eq]
    exact .error _ h
  | some s =>
    rw [bind_of_ok (stateOf_of_some (heq.trans hs)), bind_of_ok (stateOf_of_some hs)]
    exact hf s (fun hne => h.table.known tid ⟨s, heq.trans hs, hne⟩) m n h

/-- The context of a thread in `K` is the same on both sides, or missing on both. -/
theorem blind_contextOf (htid : K tid) : Blind K (contextOf tid : Critical C σ C) := by
  intro m n h
  have hsaved := h.table.saved?_eq tid htid
  have hstate := h.table.state?_eq tid
  cases hs : n.table.state? tid with
  | none =>
    rw [contextOf_of_none (hstate.trans hs), contextOf_of_none hs, h.table.capacity_eq]
    exact .error _ h
  | some s =>
    cases hc : n.table.saved? tid with
    | none =>
      rw [contextOf_apply, contextOf_apply, Table.context_of_unsaved (hstate.trans hs) (hsaved.trans hc),
        Table.context_of_unsaved hs hc]
      exact .error _ h
    | some c =>
      rw [contextOf_of_saved (hsaved.trans hc), contextOf_of_saved hc]
      exact .ok c h

/-- An update of the slot of `tid` that goes the same way in alike tables. -/
theorem blind_update {f : Slot C → Except Fault (Slot C)}
    (hf : ∀ (t t' : Table C) (s : ThreadState), t.Alike K t' → t.state? tid = some s →
      t'.state? tid = some s →
        (∃ u u', t.update tid f = .ok u ∧ t'.update tid f = .ok u' ∧ u.Alike K u') ∨
        ∃ e, t.update tid f = .error e ∧ t'.update tid f = .error e) :
    Blind K (updateTable fun t => t.update tid f : Critical C σ Unit) := by
  intro m n h
  have heq := h.table.state?_eq tid
  rw [updateTable_apply, updateTable_apply]
  cases hs : n.table.state? tid with
  | none =>
    rw [Table.update_of_none (heq.trans hs), Table.update_of_none hs, h.table.capacity_eq]
    exact .error _ h
  | some s =>
    obtain ⟨u, u', hu, hu', halike⟩ | ⟨e, he, he'⟩ := hf _ _ s h.table (heq.trans hs) hs
    · rw [hu, hu']
      exact .ok () { h with table := halike }
    · rw [he, he']
      exact .error e h

/-- Nobody may be put inside without being known. -/
theorem blind_setState (hs : s = .uncaptured ∨ K tid) :
    Blind K (setState tid s : Critical C σ Unit) :=
  blind_update fun _ _ _ h hst hst' =>
    .inl ⟨_, _, Table.setState_of_some hst, Table.setState_of_some hst', h.mark hs⟩

/-- Anybody's context can be stored. -/
theorem blind_storeContext (tid : ThreadId) (c : C) :
    Blind K (storeContext tid c : Critical C σ Unit) :=
  blind_update fun _ _ _ h hst hst' =>
    .inl ⟨_, _, Table.store_of_some hst, Table.store_of_some hst', h.save tid c⟩

/-- A thread that can be moved from inside is in `K`. -/
theorem blind_moveState (hold : old ≠ .uncaptured) :
    Blind K (moveState tid old new : Critical C σ Unit) := by
  refine blind_update fun t t' st h hst hst' => ?_
  rcases eq_or_ne st old with rfl | hne
  · have htid : K tid := h.known tid ⟨st, hst, hold⟩
    exact .inl ⟨_, _, Table.move_of_some hst, Table.move_of_some hst', h.mark (.inr htid)⟩
  · exact .inr ⟨_, Table.move_of_ne hst hne, Table.move_of_ne hst' hne⟩

/-- What is changed has been read, so this is only for threads in `K`. -/
theorem blind_modifyContext (htid : K tid) (f : C → C) :
    Blind K (modifyContext tid f : Critical C σ Unit) := by
  refine blind_update fun t t' st h hst hst' => ?_
  have hsaved := h.saved?_eq tid htid
  cases hc : t'.saved? tid with
  | none =>
    exact .inr ⟨_, Table.modifyContext_of_unsaved hst (hsaved.trans hc) f,
      Table.modifyContext_of_unsaved hst' hc f⟩
  | some c =>
    exact .inl ⟨_, _, Table.modifyContext_of_saved (hsaved.trans hc) f,
      Table.modifyContext_of_saved hc f, h.save tid _⟩

/-- Storing the context of `tid` puts it into the set. -/
theorem storeContext_agree (h : m.Alike K n) (tid : ThreadId) (c : C) :
    Agree (fun u => K u ∨ u = tid) (storeContext tid c m) (storeContext tid c n) := by
  have heq := h.table.state?_eq tid
  cases hs : n.table.state? tid with
  | none =>
    rw [storeContext_of_none (heq.trans hs), storeContext_of_none hs, h.table.capacity_eq]
    refine .error _ { h with
      table := { h.table with saved?_eq := ?_, known := fun u hu => .inl (h.table.known u hu) }
      runner_known := .inl h.runner_known
      nobody_known := .inl h.nobody_known }
    rintro u (hu | rfl)
    · exact h.table.saved?_eq u hu
    · rw [Table.saved?_of_unknown (heq.trans hs), Table.saved?_of_unknown hs]
  | some s =>
    rw [storeContext_of_some (heq.trans hs), storeContext_of_some hs]
    exact .ok () { h with
      table := h.table.save_known tid c
      runner_known := .inl h.runner_known
      nobody_known := .inl h.nobody_known }

end Critical

end SoleRunner
