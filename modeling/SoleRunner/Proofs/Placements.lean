import Mathlib.Data.List.Sort
import SoleRunner.Proofs.Creation
import SoleRunner.Proofs.Plans

/-!
# Proofs/Placements — a plan has exactly the hooks and guards that were asked for

The requests of a scheduler come in any order and any number of times.  The plan made of them has its hooks
in increasing order, each once, and a hook and a guard wherever one belongs (`Plan.Serves`), so it is
determined by the set of the requested operations (`Plan.Serves.unique`).  Of several bad requests the
first is reported (`Plan.hooksOf_error_iff`).
-/

namespace SoleRunner

namespace CodeUnit

variable {u : CodeUnit} {i : Nat}

theorem isSyscall_iff : u.isSyscall i = true ↔ u.ops[i]? = some .syscall := beq_iff_eq

theorem mem_syscalls : i ∈ u.syscalls ↔ u.ops[i]? = some .syscall := by
  rw [syscalls, List.mem_filter, List.mem_range, isSyscall_iff]
  refine and_iff_right_of_imp fun h => ?_
  obtain ⟨hi, -⟩ := List.getElem?_eq_some_iff.mp h
  exact hi

theorem pairwise_syscalls (u : CodeUnit) : u.syscalls.Pairwise (· < ·) :=
  List.pairwise_lt_range.filter _

theorem isEmpty_eq_false_iff : u.isEmpty = false ↔ u.ops ≠ [] := List.isEmpty_eq_false_iff

end CodeUnit

/-- What is wrong with a request that is not valid: its point, else its index. -/
def Placement.fault (q : Placement) (u : CodeUnit) : Fault :=
  .violation (if q.point = .before then .placementOutOfRange q.index u.length
    else .unsupportedPlacement q.point)

/-- **`q` is the first bad request** of `qs`: all before it are valid, and it is not. -/
def Placement.IsFirstBad (q : Placement) (u : CodeUnit) (qs : List Placement) : Prop :=
  ∃ good rest, qs = good ++ q :: rest ∧ (∀ p ∈ good, p.IsValid u) ∧ ¬q.IsValid u

namespace Plan

variable {u : CodeUnit} {q : Placement} {qs : List Placement} {hooks : List Nat} {b : Bool} {i j : Nat}

/-! ## Inserting an index -/

/-- An index that is inserted is there, once. -/
theorem mem_insertIndex {is : List Nat} : i ∈ insertIndex j is ↔ i = j ∨ i ∈ is := by
  induction is with
  | nil => exact List.mem_cons
  | cons k ks ih =>
    rw [insertIndex]
    split
    · exact List.mem_cons
    · split
      next heq =>
        subst heq
        rw [List.mem_cons, ← or_assoc, or_self]
      next => rw [List.mem_cons, List.mem_cons, ih, or_left_comm]

/-- What is increasing stays so. -/
theorem pairwise_insertIndex {is : List Nat} (h : is.Pairwise (· < ·)) :
    (insertIndex j is).Pairwise (· < ·) := by
  induction is with
  | nil => exact List.pairwise_singleton _ _
  | cons k ks ih =>
    obtain ⟨hk, hks⟩ := List.pairwise_cons.mp h
    rw [insertIndex]
    split
    next hjk =>
      refine List.pairwise_cons.mpr ⟨fun i hi => ?_, h⟩
      rcases List.mem_cons.mp hi with rfl | hi
      · exact hjk
      · exact Nat.lt_trans hjk (hk i hi)
    next hjk =>
      split
      next => exact h
      next hne =>
        refine List.pairwise_cons.mpr ⟨fun i hi => ?_, ih hks⟩
        rcases mem_insertIndex.mp hi with rfl | hi
        · omega
        · exact hk i hi

/-! ## One request -/

theorem checkPlacement_of_valid (h : q.IsValid u) : checkPlacement u.length q = .ok () :=
  checkPlacement_ok_iff.mpr h

theorem checkPlacement_of_not_valid (h : ¬q.IsValid u) :
    checkPlacement u.length q = .error (q.fault u) := by
  unfold checkPlacement Placement.fault
  by_cases hp : q.point = .before
  · have hle : u.length ≤ q.index := Nat.not_lt.mp fun hlt => h ⟨hp, hlt⟩
    rw [if_neg (not_not_intro hp), if_pos hle, if_pos hp]
  · rw [if_pos hp, if_neg hp]

/-! ## All requests -/

/-- The hooks for some requests are those for all but the first, and the first's own unless it is
dropped. -/
theorem hooksOf_cons_ok {length : Nat} (h : hooksOf length b (q :: qs) = .ok hooks) :
    ∃ later, hooksOf length b qs = .ok later ∧
      hooks = if q.index = 0 && b then later else insertIndex q.index later := by
  rw [hooksOf] at h
  split at h
  · cases h
  · split at h
    · cases h
    next later hlater => exact ⟨later, hlater, (Except.ok.inj h).symm⟩

/-- They are increasing. -/
theorem pairwise_hooksOf {length : Nat} (h : hooksOf length b qs = .ok hooks) :
    hooks.Pairwise (· < ·) := by
  induction qs generalizing hooks with
  | nil =>
    cases h
    exact .nil
  | cons q qs ih =>
    obtain ⟨later, hlater, rfl⟩ := hooksOf_cons_ok h
    split
    · exact ih hlater
    · exact pairwise_insertIndex (ih hlater)

/-- **The hooks are the requested indices**, less the first one of a unit that starts with a system
call. -/
theorem mem_hooksOf {length : Nat} (h : hooksOf length b qs = .ok hooks) :
    i ∈ hooks ↔ (∃ q ∈ qs, q.index = i) ∧ ¬(i = 0 ∧ b = true) := by
  induction qs generalizing hooks with
  | nil =>
    cases h
    exact iff_of_false List.not_mem_nil fun ⟨⟨_, hq, _⟩, _⟩ => List.not_mem_nil hq
  | cons q qs ih =>
    obtain ⟨later, hlater, rfl⟩ := hooksOf_cons_ok h
    rw [List.exists_mem_cons_iff, or_and_right, ← ih hlater]
    split
    next hdrop =>
      rw [Bool.and_eq_true, decide_eq_true_eq] at hdrop
      refine (or_iff_right ?_).symm
      rintro ⟨rfl, hkeep⟩
      exact hkeep hdrop
    next hkeep =>
      rw [Bool.and_eq_true, decide_eq_true_eq] at hkeep
      rw [mem_insertIndex]
      refine or_congr_left ⟨?_, fun h => h.1.symm⟩
      rintro rfl
      exact ⟨rfl, hkeep⟩

theorem not_isFirstBad_nil : ¬q.IsFirstBad u [] := by
  rintro ⟨good, rest, heq, -⟩
  exact List.append_ne_nil_of_right_ne_nil good (List.cons_ne_nil q rest) heq.symm

/-- A valid request is passed over. -/
theorem isFirstBad_cons_of_valid {p : Placement} (hp : p.IsValid u) :
    q.IsFirstBad u (p :: qs) ↔ q.IsFirstBad u qs := by
  constructor
  · rintro ⟨_ | ⟨p', good⟩, rest, heq, hgood, hq⟩
    · cases heq
      exact absurd hp hq
    · cases heq
      exact ⟨good, rest, rfl, (List.forall_mem_cons.mp hgood).2, hq⟩
  · rintro ⟨good, rest, rfl, hgood, hq⟩
    exact ⟨p :: good, rest, rfl, List.forall_mem_cons.mpr ⟨hp, hgood⟩, hq⟩

theorem isFirstBad_cons_of_not_valid {p : Placement} (hp : ¬p.IsValid u) :
    q.IsFirstBad u (p :: qs) ↔ q = p := by
  constructor
  · rintro ⟨_ | ⟨p', good⟩, rest, heq, hgood, hq⟩
    · cases heq
      rfl
    · cases heq
      exact absurd (List.forall_mem_cons.mp hgood).1 hp
  · rintro rfl
    exact ⟨[], qs, rfl, List.forall_mem_nil _, hp⟩

/-- **The first bad request is reported.** -/
theorem hooksOf_error_iff {e : Fault} :
    hooksOf u.length b qs = .error e ↔ ∃ q : Placement, q.IsFirstBad u qs ∧ e = q.fault u := by
  induction qs with
  | nil => exact iff_of_false (fun h => by cases h) fun ⟨_, hq, _⟩ => not_isFirstBad_nil hq
  | cons p qs ih =>
    rw [hooksOf]
    by_cases hp : p.IsValid u
    · rw [checkPlacement_of_valid hp]
      simp only [isFirstBad_cons_of_valid hp, ← ih]
      split
      next hqs => rw [hqs]
      next hqs => rw [hqs]; exact iff_of_false (fun h => by cases h) (fun h => by cases h)
    · rw [checkPlacement_of_not_valid hp]
      simp only [isFirstBad_cons_of_not_valid hp, exists_eq_left, Except.error.injEq]
      exact eq_comm

/-! ## The plan -/

/-- **A plan serves the requests** for switch points in a unit: it has a hook before each requested
operation, unless the unit starts with it as a system call, a guard before each system call, and an entry
guard if the first operation is there and no system call. -/
structure Serves (plan : Plan) (u : CodeUnit) (asked : List Placement) : Prop where
  hooks_increasing : plan.switchHooks.Pairwise (· < ·)
  mem_hooks (i : Nat) : i ∈ plan.switchHooks ↔
    (∃ q ∈ asked, q.index = i) ∧ ¬(i = 0 ∧ u.ops[0]? = some .syscall)
  guards_increasing : plan.syscallGuards.Pairwise (· < ·)
  mem_guards (i : Nat) : i ∈ plan.syscallGuards ↔ u.ops[i]? = some .syscall
  entry_iff : plan.entryGuard = true ↔ u.ops ≠ [] ∧ u.ops[0]? ≠ some .syscall

/-- Requests for the same operations are served by one plan only. -/
theorem Serves.unique {plan plan' : Plan} {asked asked' : List Placement} (h : plan.Serves u asked)
    (h' : plan'.Serves u asked')
    (hsame : ∀ i, (∃ q ∈ asked, q.index = i) ↔ ∃ q ∈ asked', q.index = i) : plan = plan' := by
  have hentry : plan.entryGuard = plan'.entryGuard :=
    Bool.eq_iff_iff.mpr (h.entry_iff.trans h'.entry_iff.symm)
  have hguards : plan.syscallGuards = plan'.syscallGuards :=
    h.guards_increasing.eq_of_mem_iff h'.guards_increasing fun i =>
      (h.mem_guards i).trans (h'.mem_guards i).symm
  have hhooks : plan.switchHooks = plan'.switchHooks :=
    h.hooks_increasing.eq_of_mem_iff h'.hooks_increasing fun i => by
      rw [h.mem_hooks, h'.mem_hooks, hsame]
  obtain ⟨entry, guards, hooks⟩ := plan
  obtain rfl := hentry
  obtain rfl := hguards
  obtain rfl := hhooks
  rfl

/-- A plan is the hooks for the requests with the guards of the unit. -/
theorem ofTrace_requestAll (u : CodeUnit) (qs : List Placement) :
    ofTrace u ((UnitTrace.ofUnit u).requestAll qs) =
      (hooksOf u.length (u.isSyscall 0) qs).map fun hooks =>
        ⟨!u.isEmpty && !u.isSyscall 0, u.syscalls, hooks⟩ := by
  rw [UnitTrace.requestAll_eq]
  rfl

/-- **A plan that is made serves the requests.** -/
theorem serves_of_ofTrace {plan : Plan}
    (h : ofTrace u ((UnitTrace.ofUnit u).requestAll qs) = .ok plan) : plan.Serves u qs := by
  rw [ofTrace_requestAll] at h
  cases hhooks : hooksOf u.length (u.isSyscall 0) qs with
  | error e => rw [hhooks] at h; nomatch h
  | ok hooks =>
    rw [hhooks] at h
    cases h
    refine ⟨pairwise_hooksOf hhooks, fun i => ?_, u.pairwise_syscalls, fun i => CodeUnit.mem_syscalls, ?_⟩
    · rw [mem_hooksOf hhooks, CodeUnit.isSyscall_iff]
    · rw [Bool.and_eq_true, Bool.not_eq_true', Bool.not_eq_true', CodeUnit.isEmpty_eq_false_iff,
        Bool.eq_false_iff, ne_eq (u.isSyscall 0), CodeUnit.isSyscall_iff]

/-- **A plan is refused for the first bad request.** -/
theorem ofTrace_error_iff {e : Fault} :
    ofTrace u ((UnitTrace.ofUnit u).requestAll qs) = .error e ↔
      ∃ q : Placement, q.IsFirstBad u qs ∧ e = q.fault u := by
  rw [ofTrace_requestAll, ← hooksOf_error_iff]
  cases hooksOf u.length (u.isSyscall 0) qs with
  | error e' => rw [Except.map, Except.error.injEq, Except.error.injEq]
  | ok hooks => exact iff_of_false nofun nofun

end Plan

namespace Arbiter

open Critical

variable {C σ C' σ' : Type}

theorem serves_of_planUnit {arb : Arbiter C σ} {u : CodeUnit} {m m' : Ledger C σ} {plan : Plan}
    (h : arb.planUnit u m = .ok plan m') : plan.Serves u (arb.requests u m) := by
  obtain ⟨m'', hplan⟩ := arb.planUnit_of_ofTrace u m
  rw [hplan] at h
  split at h
  next htrace =>
    cases h
    exact Plan.serves_of_ofTrace htrace
  next => nomatch h

theorem planUnit_error_iff (arb : Arbiter C σ) (u : CodeUnit) (m : Ledger C σ) (e : Fault) :
    (∃ m', arb.planUnit u m = .error e m') ↔
      Plan.ofTrace u ((UnitTrace.ofUnit u).requestAll (arb.requests u m)) = .error e := by
  obtain ⟨m'', hplan⟩ := arb.planUnit_of_ofTrace u m
  rw [hplan]
  cases Plan.ofTrace u ((UnitTrace.ofUnit u).requestAll (arb.requests u m)) with
  | ok plan => exact iff_of_false nofun nofun
  | error e' =>
    constructor
    · rintro ⟨_, ⟨⟩⟩
      rfl
    · rintro ⟨⟩
      exact ⟨m'', rfl⟩

/-- **The plan of a unit, exactly.**  Whatever the scheduler asks for, in any order and any number of
times: the unit gets a plan if and only if each request is for a point before one of its operations.  The
plan then has, in increasing order, a hook before each requested operation (less a system call that the
unit starts with) and a guard before each system call, and an entry guard unless the unit is empty or
starts with a system call; so it is the same for every arbiter and every ledger with requests for the
same operations.  Otherwise the fault is that of the first bad request. -/
theorem planUnit_exact (arb : Arbiter C σ) (u : CodeUnit) (m : Ledger C σ) :
    ((∃ plan m', arb.planUnit u m = .ok plan m') ↔
      ∀ q ∈ arb.requests u m, q.point = .before ∧ q.index < u.length) ∧
    (∀ plan m', arb.planUnit u m = .ok plan m' → plan.Serves u (arb.requests u m)) ∧
    (∀ (arb' : Arbiter C' σ') (n : Ledger C' σ'),
      (∀ i, (∃ q ∈ arb.requests u m, q.index = i) ↔ ∃ q ∈ arb'.requests u n, q.index = i) →
      ∀ plan m' plan' n', arb.planUnit u m = .ok plan m' → arb'.planUnit u n = .ok plan' n' →
        plan = plan') ∧
    ∀ e, (∃ m', arb.planUnit u m = .error e m') ↔
      ∃ q : Placement, (∃ good rest, arb.requests u m = good ++ q :: rest ∧
        (∀ p ∈ good, p.point = .before ∧ p.index < u.length) ∧
        ¬(q.point = .before ∧ q.index < u.length)) ∧
        e = .violation (if q.point = .before then .placementOutOfRange q.index u.length
          else .unsupportedPlacement q.point) := by
  refine ⟨arb.planUnit_ok_iff u m, fun plan m' => serves_of_planUnit, ?_, fun e => ?_⟩
  · intro arb' n hsame plan m' plan' n' h h'
    exact (serves_of_planUnit h).unique (serves_of_planUnit h') hsame
  · rw [planUnit_error_iff]
    exact Plan.ofTrace_error_iff

/-- Hooks that are asked for twice and out of order get the plan that they get once and in order.  A hook
before a leading system call is dropped.  Of two bad requests the first is reported. -/
theorem planUnit_exact_repeated :
    let arb (qs : List Placement) : Arbiter Cursor Rotation :=
      { twoSlots with scheduler := Rotation.placing fun _ => qs }
    let u : CodeUnit := ⟨0x40, [.syscall, .plain, .plain]⟩
    let twice : List Placement := [⟨2, .before⟩, ⟨1, .before⟩, ⟨0, .before⟩, ⟨2, .before⟩]
    let once : List Placement := [⟨0, .before⟩, ⟨1, .before⟩, ⟨2, .before⟩]
    (∃ plan m', (arb twice).planUnit u (.fresh 2 {}) = .ok plan m' ∧ plan.switchHooks.Pairwise (· < ·) ∧
      2 ∈ plan.switchHooks ∧ 0 ∉ plan.switchHooks ∧
      ∀ plan' n', (arb once).planUnit u (.fresh 2 {}) = .ok plan' n' → plan = plan') ∧
    ∃ m', (arb [⟨0, .before⟩, ⟨3, .before⟩, ⟨0, .after⟩]).planUnit u (.fresh 2 {}) =
      .error (.violation (.placementOutOfRange 3 3)) m' := by
  intro arb u twice once
  have hexact (qs : List Placement) :=
    @planUnit_exact Cursor Rotation Cursor Rotation (arb qs) u (.fresh 2 {})
  constructor
  · obtain ⟨hok, hserves, hsame, -⟩ := hexact twice
    obtain ⟨plan, m', h⟩ := hok.mpr (by decide)
    have hplan := hserves plan m' h
    refine ⟨plan, m', h, hplan.hooks_increasing, (hplan.mem_hooks 2).mpr (by decide), ?_, ?_⟩
    · rw [hplan.mem_hooks]
      exact fun hmem => hmem.2 ⟨rfl, rfl⟩
    · refine fun plan' n' => hsame (arb once) (.fresh 2 {}) (fun i => ?_) plan m' plan' n' h
      change (∃ q ∈ twice, q.index = i) ↔ ∃ q ∈ once, q.index = i
      grind
  · obtain ⟨-, -, -, herror⟩ := hexact [⟨0, .before⟩, ⟨3, .before⟩, ⟨0, .after⟩]
    have hfirst : (⟨3, .before⟩ : Placement).IsFirstBad u [⟨0, .before⟩, ⟨3, .before⟩, ⟨0, .after⟩] :=
      ⟨[⟨0, .before⟩], [⟨0, .after⟩], rfl, by decide, by decide⟩
    exact (herror _).mpr ⟨_, hfirst, rfl⟩

end Arbiter

end SoleRunner
