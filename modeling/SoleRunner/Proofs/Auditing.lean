import Mathlib.Data.Set.Card
import SoleRunner.Arbiter.Audit
import SoleRunner.Proofs.Listing

/-!
# Proofs/Auditing — the audit accepts exactly what it is meant to accept

The audit compares a count with a count and a list with a list.  What it is about are sets of threads: the
captured count is the number of idle and running threads (`Ledger.Counted`), and these are led by a runner
(`Ledger.Led`).  Both mean the same on every ledger whose table is as large as a configuration allows,
also on one that no run leads to (`Ledger.audit_exact`), so a test that trusts the audit tests the sets.
-/

namespace SoleRunner

namespace Table

variable {C : Type} {t : Table C} {tid : ThreadId} {s s' : ThreadState}

/-- No thread is in two states. -/
theorem not_mem_inState_of_mem (hne : s ≠ s') (hs : tid ∈ t.inState s) : tid ∉ t.inState s' := by
  intro hs'
  exact hne (Option.some.inj (hs.symm.trans hs'))

section

variable (hcap : t.capacity ≤ ThreadId.nobody.index)

include hcap

/-- The threads in a state are those of a list, so that they can be counted by its length. -/
theorem inState_eq_toFinset (s : ThreadState) : t.inState s = ↑(t.threadsIn s).toFinset := by
  ext tid
  rw [Finset.mem_coe, List.mem_toFinset, mem_threadsIn_iff hcap, mem_inState]

theorem finite_inState (s : ThreadState) : (t.inState s).Finite := by
  rw [inState_eq_toFinset hcap]
  exact Finset.finite_toSet _

/-- There are as many of them as the table counts. -/
theorem ncard_inState (s : ThreadState) : (t.inState s).ncard = t.countOf (· == s) := by
  rw [inState_eq_toFinset hcap, Set.ncard_coe_finset, List.toFinset_card_of_nodup (nodup_threadsIn hcap),
    length_threadsIn]

/-- **The captured count is the number of threads that are idle or running.** -/
theorem capturedCount_eq_ncard : t.capturedCount = (t.inState .idle ∪ t.inState .running).ncard := by
  have hdisjoint : Disjoint (t.inState .idle) (t.inState .running) :=
    Set.disjoint_left.mpr fun _ => not_mem_inState_of_mem (by decide)
  rw [Set.ncard_union_eq hdisjoint (finite_inState hcap _) (finite_inState hcap _), ncard_inState hcap,
    ncard_inState hcap, capturedCount_eq_add]

end

end Table

namespace Ledger

variable {C σ : Type} {m : Ledger C σ} {e : Fault}

/-- **The count is right**: as many threads are idle or running as are said to be captured. -/
def Counted (m : Ledger C σ) : Prop :=
  m.captured = (m.table.inState .idle ∪ m.table.inState .running).ncard

/-- **The runner leads**: nobody runs while nobody is captured, and otherwise the runner runs and nobody
else. -/
def Led (m : Ledger C σ) : Prop :=
  m.captured = 0 ∧ m.table.inState .running = ∅ ∨
    0 < m.captured ∧ m.table.inState .running = {m.runner}

/-- **Somebody attends**: there is an executor exactly while somebody is captured. -/
def Attended (m : Ledger C σ) : Prop := m.executor = .nobody ↔ m.captured = 0

/-- The expectation that fails where the runner does not lead. -/
def leadCheck (m : Ledger C σ) : Check :=
  if m.captured = 0 then .nobodyRunsUncaptured else .runnerIsTheOneRunning

/-! ## One expectation after another -/

section

variable (hcap : m.table.capacity ≤ ThreadId.nobody.index)

include hcap

/-- The count of the audit is that of the set. -/
theorem counted_iff : m.Counted ↔ m.captured = m.table.capturedCount := by
  rw [Counted, Table.capturedCount_eq_ncard hcap]

theorem audit_of_not_counted (hc : ¬ m.Counted) : m.audit = .error (.broken .capturedCountMatches) := by
  rw [audit, if_pos ((counted_iff hcap).not.mp hc)]

/-- **The audit passes** where the count is right and the runner leads. -/
theorem audit_of_led (hc : m.Counted) (hl : m.Led) : m.audit = .ok () := by
  rw [audit, if_neg (not_not_intro ((counted_iff hcap).mp hc))]
  rcases hl with ⟨h0, hnone⟩ | ⟨hpos, hone⟩
  · rw [if_pos h0, if_pos ((Table.threadsIn_eq_nil_iff hcap).mpr hnone)]
  · rw [if_neg hpos.ne', if_pos ((Table.threadsIn_eq_singleton_iff hcap).mpr hone)]

/-- Where only the runner does not lead, the audit says which of the two expectations failed. -/
theorem audit_of_not_led (hc : m.Counted) (hl : ¬ m.Led) : m.audit = .error (.broken m.leadCheck) := by
  rw [audit, if_neg (not_not_intro ((counted_iff hcap).mp hc)), leadCheck]
  by_cases h0 : m.captured = 0
  · have hsome : m.table.threadsIn .running ≠ [] := fun h =>
      hl (.inl ⟨h0, (Table.threadsIn_eq_nil_iff hcap).mp h⟩)
    rw [if_pos h0, if_neg hsome, if_pos h0]
  · have hother : m.table.threadsIn .running ≠ [m.runner] := fun h =>
      hl (.inr ⟨Nat.pos_of_ne_zero h0, (Table.threadsIn_eq_singleton_iff hcap).mp h⟩)
    rw [if_neg h0, if_neg hother, if_neg h0]

/-- **It passes nowhere else.** -/
theorem audit_ok_iff : m.audit = .ok () ↔ m.Counted ∧ m.Led := by
  constructor
  · intro hok
    by_cases hc : m.Counted
    · refine ⟨hc, Classical.byContradiction fun hl => ?_⟩
      rw [audit_of_not_led hcap hc hl] at hok
      nomatch hok
    · rw [audit_of_not_counted hcap hc] at hok
      nomatch hok
  · rintro ⟨hc, hl⟩
    exact audit_of_led hcap hc hl

/-- **The fault of the audit** is that of the first expectation that fails. -/
theorem audit_error_iff : m.audit = .error e ↔
    ¬ m.Counted ∧ e = .broken .capturedCountMatches ∨
    m.Counted ∧ ¬ m.Led ∧ e = .broken m.leadCheck := by
  by_cases hc : m.Counted
  · by_cases hl : m.Led
    · simp [audit_of_led hcap hc hl, hc, hl]
    · simp [audit_of_not_led hcap hc hl, hc, hl, eq_comm]
  · simp [audit_of_not_counted hcap hc, hc, eq_comm]

end

/-- At rest somebody must attend, too. -/
theorem auditAtRest_ok_iff : m.auditAtRest = .ok () ↔ m.audit = .ok () ∧ m.Attended := by
  unfold auditAtRest
  cases m.audit with
  | error e => simp
  | ok _ => simp [Attended, iff_comm]

/-- The fault of the audit comes first. -/
theorem auditAtRest_error_iff : m.auditAtRest = .error e ↔
    m.audit = .error e ∨ m.audit = .ok () ∧ ¬ m.Attended ∧ e = .broken .executorIffCaptured := by
  unfold auditAtRest
  cases m.audit with
  | error e' => simp
  | ok _ =>
    by_cases ha : m.Attended
    · simp [ha, iff_comm.mp ha]
    · have ha' : ¬ (m.captured = 0 ↔ m.executor = .nobody) := fun h => ha h.symm
      simp [ha, ha', eq_comm (a := e)]

/-- **The audit is exact.**  Take any ledger, reachable or not, whose table has a capacity that a valid
configuration asks for.  The audit passes if and only if the count is right and the runner leads; the
audit at rest, if and only if moreover somebody attends.  Otherwise the fault is that of the first of these
that fails.  The lists it compares are the sets of threads in a state, in increasing order and each once,
and nobody is never in one. -/
theorem audit_exact (m : Ledger C σ) (config : Config) (hvalid : config.problem? = none)
    (hsize : m.table.capacity = config.capacity) :
    (m.audit = .ok () ↔ m.Counted ∧ m.Led) ∧
    (m.auditAtRest = .ok () ↔ m.Counted ∧ m.Led ∧ m.Attended) ∧
    (∀ e, m.audit = .error e ↔
      ¬ m.Counted ∧ e = .broken .capturedCountMatches ∨
      m.Counted ∧ ¬ m.Led ∧ e = .broken m.leadCheck) ∧
    (∀ e, m.auditAtRest = .error e ↔
      ¬ m.Counted ∧ e = .broken .capturedCountMatches ∨
      m.Counted ∧ ¬ m.Led ∧ e = .broken m.leadCheck ∨
      m.Counted ∧ m.Led ∧ ¬ m.Attended ∧ e = .broken .executorIffCaptured) ∧
    ∀ s, (∀ tid, tid ∈ m.table.threadsIn s ↔ m.table.state? tid = some s) ∧
      (m.table.threadsIn s).Pairwise (fun a b => a.index < b.index) ∧
      (m.table.threadsIn s).Nodup ∧ .nobody ∉ m.table.threadsIn s := by
  have hcap : m.table.capacity ≤ ThreadId.nobody.index := by
    have hlimit := ((config.problem?_eq_none_iff).mp hvalid).2
    have hnobody : Config.capacityLimit ≤ ThreadId.nobody.index := by decide
    omega
  refine ⟨audit_ok_iff hcap, ?_, fun e => audit_error_iff hcap, fun e => ?_, fun s => ?_⟩
  · rw [auditAtRest_ok_iff, audit_ok_iff hcap, and_assoc]
  · rw [auditAtRest_error_iff, audit_error_iff hcap, audit_ok_iff hcap, or_assoc, and_assoc]
  · exact ⟨fun tid => Table.mem_threadsIn_iff hcap, Table.pairwise_threadsIn hcap,
      Table.nodup_threadsIn hcap, Table.nobody_not_mem_threadsIn hcap⟩

/-- The count is right, the runner is not the thread that runs, and there is no executor: the runner is
reported, and not the executor. -/
theorem audit_exact_misled :
    let m : Ledger Nat Unit :=
      { table := ⟨#[⟨.running, none⟩, ⟨.idle, none⟩]⟩, runner := ⟨1⟩, captured := 2,
        permits := #[false, false], schedulerState := () }
    m.auditAtRest = .error (.broken .runnerIsTheOneRunning) ∧ m.Counted ∧ ¬ m.Led ∧
      m.table.threadsIn .running = [⟨0⟩] := by
  intro m
  have hrest : m.auditAtRest = .error (.broken .runnerIsTheOneRunning) := rfl
  obtain ⟨-, -, -, herror, -⟩ := audit_exact m { capacity := 2 } rfl rfl
  rcases (herror _).mp hrest with ⟨-, he⟩ | ⟨hc, hl, -⟩ | ⟨-, -, -, he⟩
  · nomatch he
  · exact ⟨hrest, hc, hl, rfl⟩
  · nomatch he

end Ledger

end SoleRunner
