import Mathlib.Algebra.Order.BigOperators.Group.Finset
import SoleRunner.Proofs.Simulation.TurnBudget

/-!
# Proofs/Simulation/TurnBound — every run comes to its end

A world whose budget is `n` takes at most `n` more turns (`Budgeted.run`): each turn begins with a beat
that its thread waited for, which is paid for (`Budgeted.act`), and the beats after that cost nothing.
A world that has been booted has the budget `turnBound` (`turns_le_turnBound`).
-/

namespace SoleRunner.Simulation

open Finset (range)
open Crew (Custody)
open Machine

variable {σ π : Type} {w w' v : World σ π} {machine : Machine σ π} {x x' : Worker} {i n : Nat}
  {is : List Nat} {p : Point} {last : ThreadId → Option (Resume Cursor)} {stand : ThreadId → Stand}

/-! ## Whoever is ready -/

namespace World

theorem mem_ready : i ∈ w.ready ↔ ∃ p, w.pointOf i = some p := by
  rw [ready, List.mem_filter, List.mem_range, Option.isSome_iff_exists]
  refine and_iff_right_of_imp ?_
  rintro ⟨p, hp⟩
  obtain ⟨x, hx⟩ := exists_of_pointOf hp
  exact lt_size hx

/-- Where no thread is picked, none is ready. -/
theorem ready_eq_nil_of_pick {k : Nat} (h : w.ready[k % w.ready.length]? = none) : w.ready = [] := by
  refine List.eq_nil_of_length_eq_zero (Nat.eq_zero_of_not_pos fun hpos => ?_)
  exact Nat.not_le_of_lt (Nat.mod_lt k hpos) (List.getElem?_eq_none_iff.mp h)

end World

/-! ## Worlds within a budget -/

/-- **The run of a world takes at most `n` more turns**: its programs stand as `stand` says, and what the
world may still take is not more than `n`. -/
structure Budgeted (machine : Machine σ π) (stand : ThreadId → Stand) (n : Nat) (w : World σ π) :
    Prop where
  custody : ∀ last, Custody (At stand) (w.crew last)
  starts : ∀ (i : Nat) (x : Worker), w.workers[i]? = some x → x.stage = .due .start →
    At stand (.ofIndex i) x.cursor
  ready : ∀ (i : Nat) (x : Worker), w.workers[i]? = some x → machine.Ready x
  budget_le : machine.budget stand w ≤ n

namespace Budgeted

theorem stands (h : Budgeted machine stand n w) : Stands machine stand w := ⟨h.custody, h.starts, h.ready⟩

/-- Programs that stand somewhere are within any budget that is enough. -/
theorem of_stands (h : Stands machine stand w) (hle : machine.budget stand w ≤ n) :
    Budgeted machine stand n w := ⟨h.custody, h.starts, h.ready, hle⟩

/-- **A beat that succeeds keeps a world within its budget**, less the turn that it may be. -/
theorem act (hwired : machine.Wired) (hleave : machine.arbiter.scheduler.LeavesContexts)
    (hst : Staged machine last w) (h : Budgeted machine stand n w) (hx : w.workers[i]? = some x)
    (ha : Acts machine (.ofIndex i) w x x' v) :
    ∃ stand', Budgeted machine stand' (n - w.turnOf i) (v.withWorker i x') := by
  have hle := h.budget_le
  by_cases hr : Runs machine (.ofIndex i) w x x' v
  · refine ⟨_, of_stands (h.stands.run hst hx hr) ?_⟩
    rw [hr.turnOf_eq hx]
    exact Nat.le_trans (hr.budget_of_own hwired hst hx (h.custody last)) hle
  · refine ⟨stand, of_stands (h.stands.call hst hx hleave ha hr) ?_⟩
    have hpaid := ha.budget_of_call hwired hst hx (h.ready i x hx) (h.custody last) hr
    omega

/-- More is enough, too. -/
theorem mono {k : Nat} (h : Budgeted machine stand n w) (hle : n ≤ k) : Budgeted machine stand k w :=
  { h with budget_le := Nat.le_trans h.budget_le hle }

/-- Whoever waits for its turn can have it: a turn is set aside for what it is doing. -/
theorem pos_of_pointOf (h : Budgeted machine stand n w) (hp : w.pointOf i = some p) : 0 < n := by
  obtain ⟨x, hx⟩ := World.exists_of_pointOf hp
  have hone : 0 < x.stage.cost := by
    rw [World.pointOf_of_some hx] at hp
    split at hp
    next q hs =>
      rw [hs]
      cases q <;> decide
    next hs =>
      rw [hs]
      decide
    next => nomatch hp
  have hterm : (w.workers[i]?.map fun x => x.stage.cost).getD 0 ≤ w.stageCost :=
    Finset.single_le_sum (f := fun i => (w.workers[i]?.map fun x => x.stage.cost).getD 0)
      (fun _ _ => Nat.zero_le _) (Finset.mem_range.mpr (World.lt_size hx))
  rw [hx] at hterm
  have hle := h.budget_le
  rw [budget] at hle
  exact Nat.lt_of_lt_of_le (Nat.lt_of_lt_of_le hone hterm)
    (Nat.le_trans (Nat.le_trans (Nat.le_add_left ..) (Nat.le_add_right ..)) hle)

section Run

variable (hwired : machine.Wired) (hleave : machine.arbiter.scheduler.LeavesContexts)

include hwired hleave

/-- No row of beats exceeds a budget. -/
theorem beats (hst : Staged machine last w) (h : Budgeted machine stand n w)
    (hbeats : machine.beats is w = .ok () w') :
    (∃ last', Staged machine last' w') ∧ ∃ stand', Budgeted machine stand' n w' := by
  refine hst.of_beats (P := fun w => ∃ stand, Budgeted machine stand n w) hwired ?_ ⟨stand, h⟩ hbeats
  rintro last w i x x' v hst ⟨stand, h⟩ hx ha
  obtain ⟨stand', h'⟩ := h.act hwired hleave hst hx ha
  exact ⟨stand', h'.mono (Nat.sub_le ..)⟩

/-- **A turn is paid for** by its first beat. -/
theorem turn (hst : Staged machine last w) (h : Budgeted machine stand (n + 1) w)
    (hp : w.pointOf i = some p) (hturn : machine.turn i w = .ok () w') :
    (∃ last', Staged machine last' w') ∧ ∃ stand', Budgeted machine stand' n w' := by
  obtain ⟨v, k, hbeat, hrest⟩ := first_beat_of_turn hp hturn
  obtain ⟨x, hx⟩ := World.exists_of_pointOf hp
  rw [beat_of_some hx] at hbeat
  split at hbeat
  next x' v' hact =>
    cases hbeat
    have ha := acts_of_act (hst.fits i x hx).not_due_wake hact
    obtain ⟨l, hst'⟩ := hst.act hwired hx ha
    obtain ⟨stand', h'⟩ := h.act hwired hleave hst hx ha
    have hone : w.turnOf i = 1 := by rw [World.turnOf, hp]; rfl
    rw [hone] at h'
    exact h'.beats hwired hleave hst' hrest
  next => cases hbeat

/-- **A run takes no more turns than its world can pay for.**  Given as many, it ends: in a fault, or when
nobody waits for a turn. -/
theorem run (hst : Staged machine last w) (h : Budgeted machine stand n w) (k : Nat) (picks : List Nat) :
    (machine.run k picks w).turns.length ≤ n ∧
      (n ≤ k → (machine.run k picks w).fault ≠ none ∨ (machine.run k picks w).world.ready = []) := by
  induction k generalizing last stand n w picks with
  | zero =>
    refine ⟨Nat.zero_le n, fun hle => .inr (List.eq_nil_iff_forall_not_mem.mpr fun i hi => ?_)⟩
    obtain ⟨p, hp⟩ := World.mem_ready.mp hi
    exact Nat.not_lt_of_le hle (h.pos_of_pointOf hp)
  | succ k ih =>
    unfold Machine.run
    dsimp only
    split
    next hnone => exact ⟨Nat.zero_le n, fun _ => .inr (World.ready_eq_nil_of_pick hnone)⟩
    next i hi =>
      obtain ⟨p, hp⟩ := World.mem_ready.mp (List.mem_of_getElem? hi)
      obtain ⟨n, rfl⟩ := Nat.exists_eq_succ_of_ne_zero (Nat.ne_of_gt (h.pos_of_pointOf hp))
      cases hturn : machine.turn i w with
      | error e w' => exact ⟨Nat.succ_le_succ (Nat.zero_le n), fun _ => .inl nofun⟩
      | ok _ w' =>
        obtain ⟨⟨last', hst'⟩, stand', h'⟩ := h.turn hwired hleave hst hp hturn
        obtain ⟨hlength, hends⟩ := ih hst' h' picks.tail
        exact ⟨Nat.succ_le_succ hlength, fun hle => hends (Nat.le_of_succ_le_succ hle)⟩

end Run

end Budgeted

/-! ## Runs -/

section Boot

variable {asked : CodeUnit → List Placement} {initial : Rotation} {config : Config}
  {policy : Policy Rotation π} {q : π} {programs : List Program} {machine : Machine Rotation π}
  {w₀ : World Rotation π}

/-- **Before its first turn, a world can pay for `turnBound` turns.** -/
theorem budgeted_of_boot
    (h : boot (Rotation.placing asked) initial config policy q programs = .ok (machine, w₀))
    (hlen : programs.length ≤ config.capacity) :
    Budgeted machine (fun _ => {}) (turnBound programs) w₀ := by
  refine .of_stands (stands_of_boot h) ?_
  have hstages : w₀.stageCost = ∑ _i ∈ range programs.length, 2 := by
    rw [World.stageCost, size_of_boot h]
    refine Finset.sum_congr rfl fun i hi => ?_
    rw [(workers_of_boot h).mpr ⟨Finset.mem_range.mp hi, rfl⟩]
    rfl
  have hcosts : machine.costs w₀.ledger (fun _ => {}) programs.length ≤
      ∑ i ∈ range programs.length, (programs[i]?.getD []).price := by
    refine Finset.sum_le_sum fun i hi => Nat.le_trans (Program.cost_le_price ..) (Nat.le_of_eq ?_)
    rw [program_of_boot h hlen (Finset.mem_range.mp hi)]
    rfl
  have hpermits : w₀.ledger.permitCount = 0 := by
    obtain ⟨-, plans, stats, log, -, rfl⟩ := of_boot h
    exact Array.count_replicate
  rw [turnBound_eq_sum, budget, size_of_boot h, hstages, hpermits, Finset.sum_add_distrib]
  exact Nat.add_le_add_right hcosts _

/-- **Every run of a simulation ends** within `turnBound` turns, whatever the policy decides and whoever is
given the turns: in a fault, or when nobody waits for a turn any more. -/
theorem turns_le_turnBound (hc : config.problem? = none) (hlen : programs.length ≤ config.capacity)
    (hvalid : ValidFrom asked 0 programs) (initial : Rotation) (policy : Policy Rotation π) (q : π) :
    ∃ machine w₀,
      boot (Rotation.placing asked) initial config policy q programs = .ok (machine, w₀) ∧
      ∀ n picks, (machine.run n picks w₀).turns.length ≤ turnBound programs ∧
        (turnBound programs ≤ n →
          (machine.run n picks w₀).fault ≠ none ∨ (machine.run n picks w₀).world.ready = []) := by
  obtain ⟨-, -, plans, stats, log, hboot⟩ | ⟨hno, -⟩ :=
    boot_outcome asked initial config policy q programs
  · have hleave : (arbiterOf asked config).scheduler.LeavesContexts := fun _ _ _ => rfl
    exact ⟨_, _, hboot, (budgeted_of_boot hboot hlen).run (wired_of_boot hboot) hleave
      (staged_of_boot hboot hlen)⟩
  · exact absurd ⟨hc, hvalid⟩ hno

/-- Two threads, with three operations to compute between them, take eleven turns at most. -/
theorem turns_le_turnBound_pair :
    ∃ (machine : Machine Rotation Unit) (w₀ : World Rotation Unit),
      boot Rotation.scheduler {} { capacity := 2 } Policy.rotate () pair = .ok (machine, w₀) ∧
      turnBound pair = 11 ∧ (machine.run 11 [1, 0, 1] w₀).turns.length ≤ 11 ∧
      ((machine.run 11 [1, 0, 1] w₀).fault ≠ none ∨ (machine.run 11 [1, 0, 1] w₀).world.ready = []) := by
  have hvalid : ValidFrom Rotation.placements 0 pair :=
    ⟨Rotation.placements_valid _, Rotation.placements_valid _, trivial⟩
  obtain ⟨machine, w₀, hboot, hrun⟩ := turns_le_turnBound
    (rfl : ({ capacity := 2 } : Config).problem? = none) (by decide) hvalid {} Policy.rotate ()
  obtain ⟨hlength, hends⟩ := hrun 11 [1, 0, 1]
  exact ⟨machine, w₀, hboot, rfl, hlength, hends (Nat.le_refl 11)⟩

end Boot

end SoleRunner.Simulation
