import Mathlib.Data.List.Rotate
import SoleRunner.Scheduler.Rotation

/-!
# Proofs/FairRotation — each thread gets its turn once a round

Runner and queue together are a line of threads (`Rotation.line`), and a turn of the rotation rotates that
line by one (`Rotation.line_rotate`).  So after `n` turns it is rotated by `n` (`Rotation.line_turns`), and
a round of as many turns as there are threads gives each of them one turn and ends as it began
(`Rotation.turns_fair`).
-/

namespace SoleRunner

namespace Rotation

variable (r : Rotation) (c : ThreadId)

/-- The runner, then the threads that wait. -/
def line : List ThreadId := c :: r.ready

/-- The runner and the rotation after some turns in a row, each taken by the thread that the turn before
made the runner. -/
def turns : Nat → ThreadId × Rotation
  | 0 => (c, r)
  | n + 1 => let (next, r') := turns n; r'.rotate next

/-- The threads that so many turns choose, first to last. -/
def chosen : Nat → List ThreadId
  | 0 => []
  | n + 1 => chosen n ++ [(r.turns c (n + 1)).1]

@[simp] theorem length_line : (r.line c).length = r.ready.length + 1 := List.length_cons

@[simp] theorem turns_zero : r.turns c 0 = (c, r) := rfl

theorem turns_succ (n : Nat) : r.turns c (n + 1) = (r.turns c n).2.rotate (r.turns c n).1 := rfl

@[simp] theorem length_chosen (n : Nat) : (r.chosen c n).length = n := by
  induction n with
  | zero => rfl
  | succ n ih => rw [chosen, List.length_append, ih, List.length_singleton]

/-- A line says who runs and who waits. -/
theorem eq_of_line_eq {s s' : ThreadId × Rotation} (h : s.2.line s.1 = s'.2.line s'.1) : s = s' := by
  obtain ⟨c, ⟨q⟩⟩ := s
  obtain ⟨c', ⟨q'⟩⟩ := s'
  obtain ⟨rfl, rfl⟩ := List.cons.inj h
  rfl

/-- **A turn rotates the line by one**, also when nobody waits. -/
theorem line_rotate : (r.rotate c).2.line (r.rotate c).1 = (r.line c).rotate 1 := by
  obtain ⟨_ | ⟨t, q⟩⟩ := r
  · exact (List.rotate_singleton c 1).symm
  · rfl

/-- **`n` turns rotate the line by `n`.** -/
theorem line_turns (n : Nat) : (r.turns c n).2.line (r.turns c n).1 = (r.line c).rotate n := by
  induction n with
  | zero => exact (List.rotate_zero _).symm
  | succ n ih => rw [turns_succ, line_rotate, ih, List.rotate_rotate]

/-- The thread that turn `n` chose stands at place `n` of the line, counted around it. -/
theorem head?_line_turns (n : Nat) : ((r.line c).rotate n).head? = some (r.turns c n).1 := by
  rw [← line_turns]
  rfl

/-- After a round everything is as before it. -/
theorem turns_add_round (n : Nat) : r.turns c (n + (r.ready.length + 1)) = r.turns c n := by
  have hround : ((r.line c).rotate n).rotate (r.ready.length + 1) = (r.line c).rotate n := by
    rw [← length_line r c, ← List.length_rotate (r.line c) n, List.rotate_length]
  refine eq_of_line_eq ?_
  rw [line_turns, line_turns, ← List.rotate_rotate, hround]

/-- The choices of turns `n + 1` to `n + k` are the line after `n + 1` turns, as far as it goes. -/
theorem drop_chosen (n : Nat) {k : Nat} (hk : k ≤ r.ready.length + 1) :
    (r.chosen c (n + k)).drop n = ((r.line c).rotate (n + 1)).take k := by
  induction k with
  | zero => rw [Nat.add_zero, List.take_zero, List.drop_eq_nil_of_le (length_chosen r c n).le]
  | succ k ih =>
    have hlt : k < ((r.line c).rotate (n + 1)).length := by
      rw [List.length_rotate, length_line]
      omega
    have hnext : ((r.line c).rotate (n + 1))[k]? = some (r.turns c (n + k + 1)).1 := by
      rw [← List.head?_rotate hlt, List.rotate_rotate, Nat.add_right_comm, head?_line_turns]
    rw [← Nat.add_assoc, chosen, List.drop_append_of_le_length (by rw [length_chosen]; omega),
      ih (Nat.le_of_succ_le hk), List.take_add_one, hnext]
    rfl

/-- A round of choices is the line as it stands after the first of them. -/
theorem drop_chosen_round (n : Nat) :
    (r.chosen c (n + (r.ready.length + 1))).drop n = (r.line c).rotate (n + 1) := by
  rw [drop_chosen r c n le_rfl, ← length_line r c]
  exact List.take_of_length_le (List.length_rotate _ _).le

/-- The first round chooses the queue, front first, and then the runner. -/
theorem chosen_round : r.chosen c (r.ready.length + 1) = r.ready ++ [c] := by
  have h := drop_chosen_round r c 0
  rwa [Nat.zero_add, List.drop_zero, line, List.rotate_cons_succ, List.rotate_zero] at h

/-- **The rotation is fair.**  When the runner and the threads that wait are pairwise distinct and nobody
joins or leaves: a first round chooses the queue, front first, and then the runner; any round, from whichever
turn on, chooses each thread exactly once and nobody else, and ends with the runner and the queue that it
began with; and after `n` turns runner and queue are those of the start rotated by `n`, with nobody lost and
nobody doubled. -/
theorem turns_fair (hnodup : (c :: r.ready).Nodup) :
    r.chosen c (r.ready.length + 1) = r.ready ++ [c] ∧
    r.turns c (r.ready.length + 1) = (c, r) ∧
    (∀ n t, ((r.chosen c (n + (r.ready.length + 1))).drop n).count t =
      if t ∈ c :: r.ready then 1 else 0) ∧
    (∀ n, r.turns c (n + (r.ready.length + 1)) = r.turns c n) ∧
    ∀ n, (r.turns c n).1 :: (r.turns c n).2.ready = (c :: r.ready).rotate n ∧
      ((r.turns c n).1 :: (r.turns c n).2.ready).Perm (c :: r.ready) ∧
      ((r.turns c n).1 :: (r.turns c n).2.ready).Nodup := by
  have hfirst : r.turns c (r.ready.length + 1) = (c, r) := by
    rw [← Nat.zero_add (r.ready.length + 1), turns_add_round, turns_zero]
  refine ⟨chosen_round r c, hfirst, fun n t => ?_, turns_add_round r c, fun n => ?_⟩
  · rw [drop_chosen_round, (List.rotate_perm _ _).count_eq t]
    split
    next hmem => exact List.count_eq_one_of_mem hnodup hmem
    next hmem => exact List.count_eq_zero_of_not_mem hmem
  · have hline : (r.turns c n).1 :: (r.turns c n).2.ready = (c :: r.ready).rotate n := line_turns r c n
    rw [hline]
    exact ⟨rfl, List.rotate_perm _ n, List.nodup_rotate.mpr hnodup⟩

/-- Thread 0 runs and threads 1 and 2 wait: from the second turn on, each of them has one of three turns;
four turns rotate the line by one. -/
theorem turns_fair_three :
    let r : Rotation := ⟨[⟨1⟩, ⟨2⟩]⟩
    (∀ t ∈ [⟨0⟩, ⟨1⟩, ⟨2⟩], ((r.chosen ⟨0⟩ 4).drop 1).count t = 1) ∧
      (r.turns ⟨0⟩ 4).1 :: (r.turns ⟨0⟩ 4).2.ready = [⟨1⟩, ⟨2⟩, ⟨0⟩] := by
  intro r
  obtain ⟨-, -, hcount, -, hline⟩ := r.turns_fair ⟨0⟩ (by decide)
  exact ⟨fun t ht => (hcount 1 t).trans (if_pos ht), (hline 4).1.trans (by decide)⟩

end Rotation

end SoleRunner
