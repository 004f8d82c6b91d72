import Mathlib.Data.List.Nodup
import Mathlib.Data.Set.Insert
import SoleRunner.Proofs.TableView

/-!
# Proofs/Listing — the list of the threads in a state names exactly these, in order, each once

`Table.threadsIn` goes through the slots by their index and makes a name of each index it keeps.  As long
as every index of the table is a thread's name (`t.capacity ≤ nobody.index`), that list is the set
`Table.inState` in increasing order, and never names nobody.  So to compare it with the empty list or with
one thread is to compare the set.  Nothing here asks how the table came about.
-/

namespace SoleRunner

namespace Table

variable {C : Type} {t : Table C} {tid : ThreadId} {s : ThreadState}

/-- The threads in state `s`, as a set. -/
def inState (t : Table C) (s : ThreadState) : Set ThreadId := {tid | t.state? tid = some s}

@[simp] theorem mem_inState : tid ∈ t.inState s ↔ t.state? tid = some s := Iff.rfl

/-- How many threads are in state `s` is how often the list of all states has it. -/
theorem length_threadsIn (t : Table C) (s : ThreadState) :
    (t.threadsIn s).length = t.countOf (· == s) := by
  have hstates : t.states.map some = (List.range t.capacity).map fun i => t.slots[i]?.map Slot.state := by
    refine List.ext_getElem (by simp [length_states]) fun i hi _ => ?_
    have hlt : i < t.slots.size := by simpa [length_states, capacity] using hi
    simp [states, hlt]
  have hcount : t.states.countP (· == s) = (t.states.map some).countP (· == some s) := by
    rw [List.countP_map]
    exact List.countP_congr fun a _ => by simp
  rw [countOf_eq_states, hcount, hstates, List.countP_map, threadsIn, List.length_map,
    List.countP_eq_length_filter]
  rfl

/-- A thread is captured if it is idle or running. -/
theorem capturedCount_eq_add (t : Table C) :
    t.capturedCount = t.countOf (· == .idle) + t.countOf (· == .running) :=
  countOf_eq_add (p := ThreadState.isCaptured) (fun s => by cases s <;> rfl) t

section

variable (hcap : t.capacity ≤ ThreadId.nobody.index)

include hcap

/-- The state of the thread with an index is that of the slot. -/
theorem state?_ofIndex {i : Nat} (hi : i < t.capacity) :
    t.state? (.ofIndex i) = t.slots[i]?.map Slot.state := by
  rw [state?, slot?, ThreadId.index_ofIndex (Nat.lt_of_lt_of_le hi hcap)]

/-- **The list names exactly the threads in the state.** -/
theorem mem_threadsIn_iff : tid ∈ t.threadsIn s ↔ t.state? tid = some s := by
  simp only [threadsIn, List.mem_map, List.mem_filter, List.mem_range, beq_iff_eq]
  constructor
  · rintro ⟨i, ⟨hi, hs⟩, rfl⟩
    rw [state?_ofIndex hcap hi, hs]
  · intro hs
    have hi := index_lt_of_state? hs
    refine ⟨tid.index, ⟨hi, ?_⟩, tid.ofIndex_index⟩
    rw [← state?_ofIndex hcap hi, tid.ofIndex_index, hs]

/-- **The list is increasing.** -/
theorem pairwise_threadsIn : (t.threadsIn s).Pairwise fun a b => a.index < b.index := by
  rw [threadsIn, List.pairwise_map]
  refine (List.pairwise_lt_range.filter _).imp_of_mem fun {i j} hi hj hlt => ?_
  have hname {k : Nat} (hk : k ∈ (List.range t.capacity).filter
      fun i => t.slots[i]?.map Slot.state == some s) : (ThreadId.ofIndex k).index = k :=
    ThreadId.index_ofIndex (Nat.lt_of_lt_of_le (List.mem_range.mp (List.mem_filter.mp hk).1) hcap)
  rwa [hname hi, hname hj]

/-- No thread is listed twice. -/
theorem nodup_threadsIn : (t.threadsIn s).Nodup := by
  refine (pairwise_threadsIn hcap).imp fun {a b} hlt => ?_
  rintro rfl
  exact Nat.lt_irrefl _ hlt

/-- Nobody's name is never listed. -/
theorem nobody_not_mem_threadsIn : ThreadId.nobody ∉ t.threadsIn s := by
  rw [mem_threadsIn_iff hcap, state?_eq_none_iff.mpr hcap]
  nofun

/-- The list is empty exactly if the set is. -/
theorem threadsIn_eq_nil_iff : t.threadsIn s = [] ↔ t.inState s = ∅ := by
  simp only [List.eq_nil_iff_forall_not_mem, Set.eq_empty_iff_forall_notMem, mem_threadsIn_iff hcap,
    mem_inState]

/-- The list is one thread exactly if the set is. -/
theorem threadsIn_eq_singleton_iff : t.threadsIn s = [tid] ↔ t.inState s = {tid} := by
  constructor
  · intro h
    ext u
    rw [mem_inState, ← mem_threadsIn_iff hcap, h, List.mem_singleton, Set.mem_singleton_iff]
  · intro h
    refine List.perm_singleton.mp ?_
    refine (List.perm_ext_iff_of_nodup (nodup_threadsIn hcap) (List.nodup_singleton _)).mpr fun u => ?_
    rw [mem_threadsIn_iff hcap, ← mem_inState, h, Set.mem_singleton_iff, List.mem_singleton]

end

end Table

end SoleRunner
