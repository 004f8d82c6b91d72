import Mathlib.Logic.Basic
import SoleRunner.Arbiter.Runner

/-!
# Proofs/TableView — a table is two functions of the thread

What a table says about a thread is its state (`state?`) and its saved context (`saved?`).  Every
operation that succeeds changes one of the two at one thread (`mark`, `save`) and leaves the other
alone, so that the state of a table after any number of operations is read off by `state?_mark` and
`state?_save`, and its saved contexts by `saved?_mark` and `saved?_save`.  `countOf_mark` says how the
number of threads in some states moves, and `capturedCount_mark` how the captured count does.
-/

namespace SoleRunner

namespace Table

variable {C : Type} {t : Table C} {tid u : ThreadId} {s old new : ThreadState} {c d : C}

/-! ## The two views -/

/-- The state of `tid`; nothing past the end of the table. -/
def state? (t : Table C) (tid : ThreadId) : Option ThreadState := (t.slot? tid).map Slot.state

/-- The saved context of `tid`, if there is one. -/
def saved? (t : Table C) (tid : ThreadId) : Option C := (t.slot? tid).bind Slot.saved

/-- The table with the slot of `tid`, if it has one, changed by `f`. -/
def adjust (t : Table C) (tid : ThreadId) (f : Slot C → Slot C) : Table C :=
  match t.slot? tid with
  | some slot => ⟨t.slots.setIfInBounds tid.index (f slot)⟩
  | none => t

/-- The table with `tid` in state `s`. -/
def mark (t : Table C) (tid : ThreadId) (s : ThreadState) : Table C :=
  t.adjust tid fun slot => { slot with state := s }

/-- The table with `c` as the saved context of `tid`. -/
def save (t : Table C) (tid : ThreadId) (c : C) : Table C :=
  t.adjust tid fun slot => { slot with saved := some c }

/-- An adjustment changes the slot of one thread, if the table has it. -/
theorem slot?_adjust (f : Slot C → Slot C) :
    (t.adjust tid f).slot? u = if u = tid then (t.slot? u).map f else t.slot? u := by
  unfold adjust
  cases h : t.slot? tid with
  | none =>
    rcases eq_or_ne u tid with rfl | e
    · rw [if_pos rfl, h]; rfl
    · rw [if_neg e]
  | some slot =>
    rcases eq_or_ne u tid with rfl | e
    · rw [if_pos rfl, h]
      exact Array.getElem?_setIfInBounds_self_of_lt (slot?_eq_some_lt h)
    · rw [if_neg e]
      exact Array.getElem?_setIfInBounds_ne fun he => e (ThreadId.index_inj.mp he).symm

/-- It adds no slot and takes none away. -/
theorem capacity_adjust (f : Slot C → Slot C) : (t.adjust tid f).capacity = t.capacity := by
  unfold adjust
  split
  · exact Array.size_setIfInBounds
  · rfl

@[simp] theorem capacity_mark : (t.mark tid s).capacity = t.capacity := capacity_adjust _

@[simp] theorem capacity_save : (t.save tid c).capacity = t.capacity := capacity_adjust _

/-- **To mark a thread** changes its own state and nobody else's, and none if it is not in the table. -/
theorem state?_mark :
    (t.mark tid s).state? u = if u = tid then (t.state? u).map fun _ => s else t.state? u := by
  unfold state? mark
  rw [slot?_adjust]
  split
  · rw [Option.map_map, Option.map_map]; rfl
  · rfl

@[simp] theorem state?_mark_self (h : t.state? tid = some old) :
    (t.mark tid s).state? tid = some s := by
  rw [state?_mark, if_pos rfl, h]
  rfl

@[simp] theorem state?_mark_of_ne (h : u ≠ tid) : (t.mark tid s).state? u = t.state? u := by
  rw [state?_mark, if_neg h]

/-- Saving a context leaves all states alone. -/
@[simp] theorem state?_save : (t.save tid c).state? u = t.state? u := by
  unfold state? save
  rw [slot?_adjust]
  split
  · rw [Option.map_map]; rfl
  · rfl

/-- Marking a thread leaves all saved contexts alone. -/
@[simp] theorem saved?_mark : (t.mark tid s).saved? u = t.saved? u := by
  unfold saved? mark
  rw [slot?_adjust]
  split
  · rw [Option.bind_map]; rfl
  · rfl

/-- **To save a context** replaces that of one thread, if it is in the table. -/
theorem saved?_save :
    (t.save tid c).saved? u = if u = tid then (t.state? u).map fun _ => c else t.saved? u := by
  unfold saved? state? save
  rw [slot?_adjust]
  split
  · cases t.slot? u <;> rfl
  · rfl

@[simp] theorem saved?_save_self (h : t.state? tid = some s) : (t.save tid c).saved? tid = some c := by
  rw [saved?_save, if_pos rfl, h]
  rfl

@[simp] theorem saved?_save_of_ne (h : u ≠ tid) : (t.save tid c).saved? u = t.saved? u := by
  rw [saved?_save, if_neg h]

/-- Whoever has a saved context is in the table. -/
theorem state?_of_saved? (h : t.saved? tid = some c) : ∃ s, t.state? tid = some s := by
  unfold saved? at h
  cases hs : t.slot? tid with
  | none => rw [hs] at h; nomatch h
  | some slot => exact ⟨slot.state, by rw [state?, hs]; rfl⟩

/-- Nothing is saved for a thread that is not in the table. -/
theorem saved?_of_unknown (h : t.state? tid = none) : t.saved? tid = none := by
  refine Option.eq_none_iff_forall_ne_some.mpr fun c hc => ?_
  obtain ⟨s, hs⟩ := state?_of_saved? hc
  nomatch h.symm.trans hs

/-- Two changes at one thread are one change. -/
theorem adjust_adjust (f g : Slot C → Slot C) :
    (t.adjust tid f).adjust tid g = t.adjust tid fun slot => g (f slot) := by
  have h : (t.adjust tid f).slot? tid = (t.slot? tid).map f := by rw [slot?_adjust, if_pos rfl]
  unfold adjust at h ⊢
  cases hs : t.slot? tid with
  | none => simp only [hs]
  | some slot =>
    simp only [hs, Option.map_some] at h ⊢
    rw [h]
    simp only [Array.setIfInBounds_setIfInBounds]

/-- Changes at two threads can be made in either order. -/
theorem adjust_comm (h : tid ≠ u) (f g : Slot C → Slot C) :
    (t.adjust tid f).adjust u g = (t.adjust u g).adjust tid f := by
  have hi : tid.index ≠ u.index := fun e => h (ThreadId.index_inj.mp e)
  have hu : (t.adjust tid f).slot? u = t.slot? u := by rw [slot?_adjust, if_neg h.symm]
  have htid : (t.adjust u g).slot? tid = t.slot? tid := by rw [slot?_adjust, if_neg h]
  rw [adjust, hu, adjust.eq_def (t.adjust u g), htid]
  unfold adjust
  cases t.slot? tid with
  | none => cases t.slot? u <;> rfl
  | some slot =>
    cases t.slot? u with
    | none => rfl
    | some slot' => exact congrArg Table.mk (Array.setIfInBounds_comm _ _ hi)

/-- Contexts of two threads can be saved in either order. -/
theorem save_comm (h : tid ≠ u) : (t.save tid c).save u d = (t.save u d).save tid c :=
  adjust_comm h _ _

/-- One thread can be marked before or after another one's context is saved. -/
theorem save_mark_comm (h : tid ≠ u) : (t.save tid c).mark u s = (t.mark u s).save tid c :=
  adjust_comm h _ _

/-- Of two marks at one thread the later one counts. -/
@[simp] theorem mark_mark : (t.mark tid old).mark tid new = t.mark tid new := adjust_adjust _ _

@[simp] theorem save_save : (t.save tid c).save tid d = t.save tid d := adjust_adjust _ _

/-- Whoever has a state has a slot. -/
theorem index_lt_of_state? (h : t.state? tid = some s) : tid.index < t.capacity := by
  obtain ⟨slot, hs, -⟩ := Option.map_eq_some_iff.mp h
  exact slot?_eq_some_lt hs

/-! ## Operations, read off the views -/

theorem slot?_eq_none_iff : t.slot? tid = none ↔ t.state? tid = none := by
  unfold state?
  rw [Option.map_eq_none_iff]

/-- Whoever asks for a slot past the end is told how many there are. -/
theorem slot_of_state?_none (h : t.state? tid = none) :
    t.slot tid = .error (.capacityExceeded tid t.capacity) := by
  rw [slot, slot?_eq_none_iff.mpr h]

/-- The state that is read is that of the view. -/
theorem state_of_some (h : t.state? tid = some s) : t.state tid = .ok s := by
  obtain ⟨slot, hs, rfl⟩ := Option.map_eq_some_iff.mp h
  rw [state, slot_eq_ok_iff.mpr hs]
  rfl

theorem state_of_none (h : t.state? tid = none) :
    t.state tid = .error (.capacityExceeded tid t.capacity) := by
  rw [state, slot_of_state?_none h]
  rfl

/-- A thread is known to the table if it has a state there. -/
theorem check_of_some (h : t.state? tid = some s) : t.check tid = .ok () := by
  obtain ⟨slot, hs, rfl⟩ := Option.map_eq_some_iff.mp h
  rw [check, slot_eq_ok_iff.mpr hs]
  rfl

theorem check_of_none (h : t.state? tid = none) :
    t.check tid = .error (.capacityExceeded tid t.capacity) := by
  rw [check, slot_of_state?_none h]
  rfl

theorem update_of_none (h : t.state? tid = none) (f : Slot C → Except Fault (Slot C)) :
    t.update tid f = .error (.capacityExceeded tid t.capacity) := by
  rw [update, slot_of_state?_none h]

/-- An update that succeeds at the slot of `tid` is an adjustment. -/
theorem update_of_slot {slot : Slot C} {f : Slot C → Except Fault (Slot C)} {g : Slot C → Slot C}
    (h : t.slot? tid = some slot) (hf : f slot = .ok (g slot)) :
    t.update tid f = .ok (t.adjust tid g) := by
  rw [update, slot_eq_ok_iff.mpr h, adjust, h]
  simp only [hf]

/-- To set the state of a known thread is to mark it. -/
theorem setState_of_some (h : t.state? tid = some old) : t.setState tid s = .ok (t.mark tid s) := by
  obtain ⟨slot, hs, -⟩ := Option.map_eq_some_iff.mp h
  exact update_of_slot hs rfl

/-- To move a thread out of the state that it is in is to mark it. -/
theorem move_of_some (h : t.state? tid = some old) : t.move tid old new = .ok (t.mark tid new) := by
  obtain ⟨slot, hs, he⟩ := Option.map_eq_some_iff.mp h
  exact update_of_slot hs (if_pos he)

/-- To move a thread out of another state than its own breaks an expectation. -/
theorem move_of_ne (h : t.state? tid = some s) (hne : s ≠ old) :
    t.move tid old new = .error (.broken .transitionFrom) := by
  obtain ⟨slot, hs, rfl⟩ := Option.map_eq_some_iff.mp h
  rw [move, update, slot_eq_ok_iff.mpr hs]
  simp only [if_neg hne]

/-- To store the context of a known thread is to save it. -/
theorem store_of_some (h : t.state? tid = some s) : t.store tid c = .ok (t.save tid c) := by
  obtain ⟨slot, hs, -⟩ := Option.map_eq_some_iff.mp h
  exact update_of_slot hs rfl

theorem store_of_none (h : t.state? tid = none) :
    t.store tid c = .error (.capacityExceeded tid t.capacity) := update_of_none h _

/-- The slot of a known thread that has no saved context. -/
theorem slot?_of_unsaved (h : t.state? tid = some s) (hn : t.saved? tid = none) :
    t.slot? tid = some ⟨s, none⟩ := by
  obtain ⟨⟨st, sv⟩, hs, rfl⟩ := Option.map_eq_some_iff.mp h
  rw [saved?, hs] at hn
  rw [hs, show sv = none from hn]

/-- The context that is read is the saved one. -/
theorem context_of_saved (h : t.saved? tid = some c) : t.context tid = .ok c := by
  obtain ⟨slot, hs, hc⟩ := Option.bind_eq_some_iff.mp h
  rw [context, slot_eq_ok_iff.mpr hs]
  simp only [hc]

/-- To read the context of a known thread that has none breaks an expectation. -/
theorem context_of_unsaved (h : t.state? tid = some s) (hn : t.saved? tid = none) :
    t.context tid = .error (.broken .contextSaved) := by
  rw [context, slot_eq_ok_iff.mpr (slot?_of_unsaved h hn)]

theorem context_of_none (h : t.state? tid = none) :
    t.context tid = .error (.capacityExceeded tid t.capacity) := by
  rw [context, slot_of_state?_none h]

/-- To change a saved context is to save the changed one. -/
theorem modifyContext_of_saved (h : t.saved? tid = some c) (f : C → C) :
    t.modifyContext tid f = .ok (t.save tid (f c)) := by
  obtain ⟨slot, hs, hc⟩ := Option.bind_eq_some_iff.mp h
  exact update_of_slot (g := fun slot => { slot with saved := some (f c) }) hs (by simp only [hc])

/-- To change a context that is not there breaks an expectation. -/
theorem modifyContext_of_unsaved (h : t.state? tid = some s) (hn : t.saved? tid = none) (f : C → C) :
    t.modifyContext tid f = .error (.broken .contextSaved) := by
  rw [modifyContext, update, slot_eq_ok_iff.mpr (slot?_of_unsaved h hn)]

/-! ## Counting and listing -/

/-- How many threads are in a state with `p`. -/
def countOf (t : Table C) (p : ThreadState → Bool) : Nat := t.slots.countP fun slot => p slot.state

/-- That is how many entries of the list of all states have `p`. -/
theorem countOf_eq_states (t : Table C) (p : ThreadState → Bool) : t.countOf p = t.states.countP p := by
  rw [states, List.countP_map, Array.countP_toList]
  rfl

/-- Where each state of one kind is of one of two others, these are counted apart. -/
theorem countOf_eq_add {p q r : ThreadState → Bool} (h : ∀ s, (if p s then 1 else 0) =
    (if q s then 1 else 0) + (if r s then 1 else 0)) (t : Table C) :
    t.countOf p = t.countOf q + t.countOf r := by
  simp only [countOf_eq_states]
  induction t.states with
  | nil => rfl
  | cons s states ih =>
    simp only [List.countP_cons, ih, h s]
    exact Nat.add_add_add_comm ..

/-- **A change at one thread** counts the thread out as it was, and in as it is then. -/
theorem countOf_adjust (p : ThreadState → Bool) {slot : Slot C} (f : Slot C → Slot C)
    (h : t.slot? tid = some slot) :
    (t.adjust tid f).countOf p + (if p slot.state then 1 else 0) =
      t.countOf p + (if p (f slot).state then 1 else 0) := by
  have hlt : tid.index < t.slots.size := slot?_eq_some_lt h
  have hget : t.slots[tid.index] = slot := by
    rw [slot?, Array.getElem?_eq_getElem hlt] at h
    exact Option.some.inj h
  have hpos : p slot.state → 0 < t.slots.countP fun slot => p slot.state := fun hc =>
    Array.countP_pos_iff.mpr ⟨slot, hget ▸ Array.getElem_mem hlt, hc⟩
  unfold adjust countOf
  simp only [h]
  rw [Array.setIfInBounds, dif_pos hlt, Array.countP_set hlt, hget]
  by_cases hs : p slot.state
  · have hone := hpos hs
    simp only [hs, if_true]
    omega
  · simp only [hs, Bool.false_eq_true, if_false, Nat.sub_zero, Nat.add_zero]

/-- How a mark moves the number of threads in some states. -/
theorem countOf_mark (p : ThreadState → Bool) (h : t.state? tid = some old) (new : ThreadState) :
    (t.mark tid new).countOf p + (if p old then 1 else 0) =
      t.countOf p + (if p new then 1 else 0) := by
  obtain ⟨slot, hs, rfl⟩ := Option.map_eq_some_iff.mp h
  exact countOf_adjust p _ hs

/-- Threads are counted by their states alone. -/
@[simp] theorem countOf_save (p : ThreadState → Bool) : (t.save tid c).countOf p = t.countOf p := by
  cases h : t.slot? tid with
  | none => unfold save adjust; simp only [h]
  | some slot => exact Nat.add_right_cancel (countOf_adjust p _ h)

/-- How a mark moves the captured count. -/
theorem capturedCount_mark (h : t.state? tid = some old) (new : ThreadState) :
    (t.mark tid new).capturedCount + (if old.isCaptured then 1 else 0) =
      t.capturedCount + (if new.isCaptured then 1 else 0) := countOf_mark ThreadState.isCaptured h new

@[simp] theorem capturedCount_save : (t.save tid c).capturedCount = t.capturedCount :=
  countOf_save ThreadState.isCaptured

/-- The captured count is positive if a thread is captured. -/
theorem capturedCount_pos (h : t.state? tid = some s) (hs : s.isCaptured) : 0 < t.capturedCount := by
  obtain ⟨slot, hslot, rfl⟩ := Option.map_eq_some_iff.mp h
  have hlt : tid.index < t.slots.size := slot?_eq_some_lt hslot
  rw [slot?, Array.getElem?_eq_getElem hlt] at hslot
  exact Array.countP_pos_iff.mpr ⟨_, Option.some.inj hslot ▸ Array.getElem_mem hlt, hs⟩

/-- Threads past the end have no state. -/
theorem state?_eq_none_iff : t.state? tid = none ↔ t.capacity ≤ tid.index := by
  rw [← slot?_eq_none_iff, slot?, Array.getElem?_eq_none_iff, capacity]

/-- A slot within the capacity has a state. -/
theorem exists_state?_of_lt (h : tid.index < t.capacity) : ∃ s, t.state? tid = some s :=
  Option.ne_none_iff_exists'.mp fun hnone => Nat.not_lt.mpr (state?_eq_none_iff.mp hnone) h

theorem exists_state?_of_contains (h : t.contains tid = true) : ∃ s, t.state? tid = some s := by
  rw [contains, Bool.and_eq_true] at h
  exact exists_state?_of_lt (of_decide_eq_true h.2)

/-- Somebody is captured if the count is positive, as long as every index of the table is a thread's. -/
theorem exists_captured (hcap : t.capacity ≤ ThreadId.nobody.index) (h : 0 < t.capturedCount) :
    ∃ u s, t.state? u = some s ∧ s.isCaptured := by
  obtain ⟨slot, hslot, hs⟩ := Array.countP_pos_iff.mp h
  obtain ⟨i, hi, rfl⟩ := Array.mem_iff_getElem.mp hslot
  refine ⟨.ofIndex i, _, ?_, hs⟩
  rw [state?, slot?, ThreadId.index_ofIndex (Nat.lt_of_lt_of_le hi hcap), Array.getElem?_eq_getElem hi]
  rfl

/-- The list of all states has that of a thread at its index. -/
theorem states_getElem? (t : Table C) (tid : ThreadId) : t.states[tid.index]? = t.state? tid := by
  rw [states, List.getElem?_map, Array.getElem?_toList, state?, slot?]

/-- It has as many entries as there are slots. -/
theorem length_states (t : Table C) : t.states.length = t.capacity := by
  rw [states, List.length_map, Array.length_toList, capacity]

/-- The states of a table whose threads have all moved as `f` says. -/
theorem states_eq_map {t' : Table C} {f : ThreadState → ThreadState}
    (hcap : t.capacity ≤ ThreadId.nobody.index) (hsize : t'.capacity = t.capacity)
    (h : ∀ u, t'.state? u = (t.state? u).map f) : t'.states = t.states.map f := by
  refine List.ext_getElem? fun i => ?_
  rw [List.getElem?_map]
  rcases Nat.lt_or_ge i t.capacity with hi | hi
  · have hindex := ThreadId.index_ofIndex (Nat.lt_of_lt_of_le hi hcap)
    rw [← hindex, states_getElem?, states_getElem?, h]
  · have hlength := length_states t
    have hlength' := length_states t'
    rw [List.getElem?_eq_none (by omega), List.getElem?_eq_none (by omega)]
    rfl

/-- It has the states that threads are in, and no others. -/
theorem mem_states_iff (hcap : t.capacity ≤ ThreadId.nobody.index) :
    s ∈ t.states ↔ ∃ u, t.state? u = some s := by
  constructor
  · intro hs
    obtain ⟨i, hi⟩ := List.mem_iff_getElem?.mp hs
    have hlt : i < t.capacity := length_states t ▸ (List.getElem?_eq_some_iff.mp hi).1
    have hindex := ThreadId.index_ofIndex (Nat.lt_of_lt_of_le hlt hcap)
    exact ⟨.ofIndex i, (states_getElem? t _).symm.trans (hindex.symm ▸ hi)⟩
  · rintro ⟨u, hu⟩
    exact List.mem_iff_getElem?.mpr ⟨u.index, (states_getElem? t u).trans hu⟩

end Table

end SoleRunner
