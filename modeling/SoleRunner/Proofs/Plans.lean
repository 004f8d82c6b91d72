import SoleRunner.Proofs.Outcome.Requests

/-!
# Proofs/Plans — which units get a plan

A unit gets its plan exactly if every switch point that the scheduler asks for is before an operation of
the unit.
-/

namespace SoleRunner

/-- A request for a switch point before an operation that the unit has. -/
def Placement.IsValid (q : Placement) (u : CodeUnit) : Prop := q.point = .before ∧ q.index < u.length

instance (q : Placement) (u : CodeUnit) : Decidable (q.IsValid u) :=
  inferInstanceAs (Decidable (q.point = .before ∧ q.index < u.length))

namespace Plan

theorem checkPlacement_ok_iff {length : Nat} {q : Placement} :
    checkPlacement length q = .ok () ↔ q.point = .before ∧ q.index < length := by
  unfold checkPlacement
  split
  next h => exact iff_of_false nofun fun hq => h hq.1
  next h =>
    rw [Classical.not_not] at h
    split
    next hle => exact iff_of_false nofun fun hq => Nat.not_lt.mpr hle hq.2
    next hlt => exact iff_of_true rfl ⟨h, Nat.not_le.mp hlt⟩

theorem hooksOf_ok_iff {length : Nat} (b : Bool) {qs : List Placement} :
    (∃ hooks, hooksOf length b qs = .ok hooks) ↔ ∀ q ∈ qs, q.point = .before ∧ q.index < length := by
  induction qs with
  | nil => exact iff_of_true ⟨_, rfl⟩ nofun
  | cons q qs ih =>
    rw [List.forall_mem_cons, ← ih, ← checkPlacement_ok_iff, hooksOf]
    cases checkPlacement length q with
    | error e => exact iff_of_false (fun ⟨_, h⟩ => nomatch h) (fun ⟨h, _⟩ => nomatch h)
    | ok _ =>
      cases hooksOf length b qs with
      | error e => exact iff_of_false (fun ⟨_, h⟩ => nomatch h) (fun ⟨_, _, h⟩ => nomatch h)
      | ok hooks => exact iff_of_true ⟨_, rfl⟩ ⟨rfl, _, rfl⟩

theorem ofTrace_ok_iff {u : CodeUnit} {qs : List Placement} :
    (∃ plan, ofTrace u ((UnitTrace.ofUnit u).requestAll qs) = .ok plan) ↔ ∀ q ∈ qs, q.IsValid u := by
  have hqs : ((UnitTrace.ofUnit u).requestAll qs).placements = qs := by
    rw [UnitTrace.requestAll_eq]
    rfl
  rw [ofTrace, hqs]
  refine Iff.trans ?_ (hooksOf_ok_iff ((UnitTrace.ofUnit u).requestAll qs).startsWithSyscall)
  cases hooksOf u.length ((UnitTrace.ofUnit u).requestAll qs).startsWithSyscall qs with
  | error e =>
    refine iff_of_false ?_ ?_
    · rintro ⟨_, ⟨⟩⟩
    · rintro ⟨_, ⟨⟩⟩
  | ok hooks => exact iff_of_true ⟨_, rfl⟩ ⟨_, rfl⟩

end Plan

namespace Arbiter

variable {C σ : Type}

/-- What the scheduler of `arb` asks for in a unit. -/
def requests (arb : Arbiter C σ) (u : CodeUnit) (m : Ledger C σ) : List Placement :=
  (arb.scheduler.switchPoints u m.schedulerState).1

/-- Planning a unit ends as the making of its plan does. -/
theorem planUnit_of_ofTrace (arb : Arbiter C σ) (u : CodeUnit) (m : Ledger C σ) :
    ∃ m', arb.planUnit u m = match Plan.ofTrace u ((UnitTrace.ofUnit u).requestAll (arb.requests u m)) with
      | .ok plan => .ok plan m'
      | .error e => .error e m' := by
  rw [planUnit, Critical.bind_of_ok (Critical.get_apply m)]
  dsimp only
  rw [Critical.bind_of_ok (Critical.tell_apply _ _), Critical.bind_of_ok (Critical.tally_apply _ _),
    requests]
  cases Plan.ofTrace u
    ((UnitTrace.ofUnit u).requestAll (arb.scheduler.switchPoints u m.schedulerState).1) with
  | error e => exact ⟨_, rfl⟩
  | ok plan => exact ⟨_, rfl⟩

/-- **A unit gets a plan exactly if every request of the scheduler is valid.** -/
theorem planUnit_ok_iff (arb : Arbiter C σ) (u : CodeUnit) (m : Ledger C σ) :
    (∃ plan m', arb.planUnit u m = .ok plan m') ↔
      ∀ q ∈ (arb.scheduler.switchPoints u m.schedulerState).1, q.IsValid u := by
  obtain ⟨m', hplan⟩ := arb.planUnit_of_ofTrace u m
  change _ ↔ ∀ q ∈ arb.requests u m, q.IsValid u
  rw [← Plan.ofTrace_ok_iff, hplan]
  cases Plan.ofTrace u ((UnitTrace.ofUnit u).requestAll (arb.requests u m)) with
  | error e =>
    refine iff_of_false ?_ ?_
    · rintro ⟨_, _, ⟨⟩⟩
    · rintro ⟨_, ⟨⟩⟩
  | ok plan => exact iff_of_true ⟨_, _, rfl⟩ ⟨_, rfl⟩

end Arbiter

end SoleRunner
