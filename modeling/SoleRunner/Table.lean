import SoleRunner.Fault

/-!
# Table — a state and a saved context for every thread

The table has a fixed number of slots, one per thread, and `slot?` is its view.  An operation on a thread
past the end is refused with `capacityExceeded`; nobody's index lies past the end of every table that a
configuration can ask for.
-/

namespace SoleRunner

/-- One thread's entry. -/
structure Slot (C : Type) where
  state : ThreadState := .uncaptured
  /-- The last snapshot of the thread. -/
  saved : Option C := none
deriving DecidableEq, Inhabited

/-- The thread table. -/
structure Table (C : Type) where
  slots : Array (Slot C)
deriving DecidableEq, Inhabited

namespace Table

variable {C : Type}

/-- The table of `n` threads, all uncaptured and without a context. -/
def ofCapacity (n : Nat) : Table C := ⟨Array.replicate n {}⟩

def capacity (t : Table C) : Nat := t.slots.size

/-- `tid` names a thread of the table. -/
def contains (t : Table C) (tid : ThreadId) : Bool :=
  tid ≠ .nobody && tid.index < t.capacity

/-- **The view**: the slot of `tid`, if the table has one. -/
def slot? (t : Table C) (tid : ThreadId) : Option (Slot C) := t.slots[tid.index]?

/-- The slot of `tid`. -/
def slot (t : Table C) (tid : ThreadId) : Except Fault (Slot C) :=
  match t.slot? tid with
  | some s => .ok s
  | none => .error (.capacityExceeded tid t.capacity)

/-- The table with the slot of `tid` replaced by what `f` makes of it. -/
def update (t : Table C) (tid : ThreadId) (f : Slot C → Except Fault (Slot C)) :
    Except Fault (Table C) :=
  match t.slot tid with
  | .ok s =>
    match f s with
    | .ok s' => .ok ⟨t.slots.setIfInBounds tid.index s'⟩
    | .error e => .error e
  | .error e => .error e

/-! ## Operations -/

/-- Refused unless `tid` fits. -/
def check (t : Table C) (tid : ThreadId) : Except Fault Unit := (t.slot tid).map fun _ => ()

def state (t : Table C) (tid : ThreadId) : Except Fault ThreadState := (t.slot tid).map Slot.state

def setState (t : Table C) (tid : ThreadId) (s : ThreadState) : Except Fault (Table C) :=
  t.update tid fun slot => .ok { slot with state := s }

/-- Moves `tid` from state `old` to state `new`; any other state is a broken expectation. -/
def move (t : Table C) (tid : ThreadId) (old new : ThreadState) : Except Fault (Table C) :=
  t.update tid fun slot =>
    if slot.state = old then .ok { slot with state := new } else .error (.broken .transitionFrom)

/-- Replaces the saved context of `tid`. -/
def store (t : Table C) (tid : ThreadId) (c : C) : Except Fault (Table C) :=
  t.update tid fun slot => .ok { slot with saved := some c }

/-- The saved context of `tid`, which must be there. -/
def context (t : Table C) (tid : ThreadId) : Except Fault C :=
  match t.slot tid with
  | .ok slot =>
    match slot.saved with
    | some c => .ok c
    | none => .error (.broken .contextSaved)
  | .error e => .error e

/-- Changes the saved context of `tid`, which must be there. -/
def modifyContext (t : Table C) (tid : ThreadId) (f : C → C) : Except Fault (Table C) :=
  t.update tid fun slot =>
    match slot.saved with
    | some c => .ok { slot with saved := some (f c) }
    | none => .error (.broken .contextSaved)

/-! ## The whole table -/

/-- The state of every thread, by index. -/
def states (t : Table C) : List ThreadState := t.slots.toList.map Slot.state

/-- How many threads are captured. -/
def capturedCount (t : Table C) : Nat := t.slots.countP (·.state.isCaptured)

/-- The threads in state `s`, in increasing order. -/
def threadsIn (t : Table C) (s : ThreadState) : List ThreadId :=
  ((List.range t.capacity).filter fun i => (t.slots[i]?.map Slot.state) == some s).map
    ThreadId.ofIndex

/-! ## The view after an operation -/

@[simp] theorem capacity_ofCapacity (n : Nat) : (ofCapacity n : Table C).capacity = n := by
  simp [ofCapacity, capacity]

theorem slot?_eq_some_lt {t : Table C} {tid : ThreadId} {s : Slot C} (h : t.slot? tid = some s) :
    tid.index < t.capacity :=
  (Array.getElem?_eq_some_iff.mp h).1

theorem slot_eq_ok_iff {t : Table C} {tid : ThreadId} {s : Slot C} :
    t.slot tid = .ok s ↔ t.slot? tid = some s := by
  unfold slot
  split <;> simp_all

theorem update_eq_ok_iff {t t' : Table C} {tid : ThreadId} {f : Slot C → Except Fault (Slot C)} :
    t.update tid f = .ok t' ↔ ∃ s s', t.slot? tid = some s ∧ f s = .ok s' ∧
      t' = ⟨t.slots.setIfInBounds tid.index s'⟩ := by
  unfold update
  split
  · next s hs =>
    rw [slot_eq_ok_iff] at hs
    cases hf : f s <;> simp [hs, hf, eq_comm]
  · next e he =>
    have hn : t.slot? tid = none := by
      cases hs : t.slot? tid with
      | none => rfl
      | some s => rw [slot_eq_ok_iff.mpr hs] at he; nomatch he
    simp [hn]

theorem capacity_of_update {t t' : Table C} {tid : ThreadId} {f : Slot C → Except Fault (Slot C)}
    (h : t.update tid f = .ok t') : t'.capacity = t.capacity := by
  obtain ⟨_, _, _, _, rfl⟩ := update_eq_ok_iff.mp h
  exact Array.size_setIfInBounds

theorem slot?_update_self {t t' : Table C} {tid : ThreadId} {f : Slot C → Except Fault (Slot C)}
    (h : t.update tid f = .ok t') : ∃ s s', t.slot? tid = some s ∧ f s = .ok s' ∧
      t'.slot? tid = some s' := by
  obtain ⟨s, s', hs, hf, rfl⟩ := update_eq_ok_iff.mp h
  refine ⟨s, s', hs, hf, ?_⟩
  exact Array.getElem?_setIfInBounds_self_of_lt (slot?_eq_some_lt hs)

theorem slot?_update_of_ne {t t' : Table C} {tid other : ThreadId}
    {f : Slot C → Except Fault (Slot C)} (h : t.update tid f = .ok t') (hne : other ≠ tid) :
    t'.slot? other = t.slot? other := by
  obtain ⟨_, _, _, _, rfl⟩ := update_eq_ok_iff.mp h
  exact Array.getElem?_setIfInBounds_ne fun e => hne (ThreadId.index_inj.mp e).symm

end Table

end SoleRunner
