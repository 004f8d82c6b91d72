import SoleRunner.Proofs.Away
import SoleRunner.Proofs.Simulation.ExactlyOnce
import SoleRunner.Proofs.Simulation.Turns

/-!
# Proofs/Simulation/Standing — where the programs of a world stand

The place of a program is spread over the cursors that OS threads have in hand and those that are saved.
A `Stand` for each thread says it in one spot: the contexts that count are where their programs stand, and
every call that a thread is about to make is at the operation that asks for it (`Stands`).  What a thread
does by itself moves the program in its hand (`Stands.run`), and a call moves none (`Stands.call`).
-/

namespace SoleRunner.Simulation

open Crew (Custody)
open Machine

variable {σ π : Type} {w v : World σ π} {machine : Machine σ π} {me u : ThreadId} {c : Cursor}
  {x x' : Worker} {i : Nat} {last : ThreadId → Option (Resume Cursor)}

/-- Where a program stands: its next operation, and whether the hook before that has run. -/
structure Stand where
  pc : Nat := 0
  hooked : Bool := false

variable {stand : ThreadId → Stand}

/-- **`c` is `u`'s cursor, and where `stand` says that `u`'s program stands.** -/
def At (stand : ThreadId → Stand) (u : ThreadId) (c : Cursor) : Prop :=
  c.owner = u ∧ stand u = ⟨c.pc, c.hooked⟩

namespace Machine

theorem ignores_at (arb : Arbiter Cursor σ) (stand : ThreadId → Stand) : arb.Ignores (At stand) :=
  ⟨fun _ h => h, fun _ h => h⟩

/-- A hook that is due has not run. -/
theorem hooked_of_not_unhooked (h : machine.unhooked c = false) : c.hooked = false := by
  refine Bool.eq_false_iff.mpr fun hhooked => ?_
  rw [unhooked_of_hooked hhooked] at h
  nomatch h

/-! ## What a thread is about to do -/

/-- **A call of a thread is at the operation that asks for it**: whoever arrives is about to compute, after
any hook, and whoever departs is not. -/
def Ready (machine : Machine σ π) (x : Worker) : Prop :=
  match x.stage with
  | .due .arrival => machine.nextOp x.cursor = some .compute ∧ x.cursor.hooked = true
  | .due .departure => machine.nextOp x.cursor ≠ some .compute
  | _ => True

theorem Runs.ready (h : Runs machine me w x x' v) : machine.Ready x' := by
  cases h with
  | departs hop => exact fun h => nomatch hop.symm.trans h
  | ships hop => exact fun h => nomatch hop.symm.trans h
  | arrives hop => exact ⟨hop, rfl⟩
  | _ => exact trivial

theorem Acts.ready (hready : machine.Ready x) (h : Acts machine me w x x' v) : machine.Ready x' := by
  cases h with
  | @arrive c a => cases a <;> exact trivial
  | @look c a => cases a <;> exact trivial
  | runs h => exact h.ready
  | rests => exact hready
  | _ => exact trivial

/-- Nobody comes to be at its start. -/
theorem Acts.not_due_start (h : Acts machine me w x x' v) : x'.stage ≠ .due .start := by
  cases h with
  | @arrive c a => cases a <;> exact nofun
  | @look c a => cases a <;> exact nofun
  | runs h => cases h <;> exact nofun
  | rests hs =>
    intro hstart
    rw [hstart] at hs
    simp at hs
  | _ => exact nofun

/-! ## The program in a thread's hand -/

theorem Runs.owner_eq (h : Runs machine me w x x' v) : x'.cursor.owner = x.cursor.owner := by
  cases h <;> rfl

/-- Where a program stands once thread `me` has run on as `x'`. -/
def restand (stand : ThreadId → Stand) (u : ThreadId) (x' : Worker) : ThreadId → Stand :=
  Function.update stand u ⟨x'.cursor.pc, x'.cursor.hooked⟩

theorem Runs.at_own (h : Runs machine me w x x' v) (hat : At stand u x.cursor) :
    At (restand stand u x') u x'.cursor :=
  ⟨h.owner_eq.trans hat.1, Function.update_self ..⟩

theorem at_other {t : ThreadId} (ht : t ≠ u) (hat : At stand t c) : At (restand stand u x') t c :=
  ⟨hat.1, (Function.update_of_ne ht ..).trans hat.2⟩

end Machine

/-! ## The mark and the place -/

namespace Staged

variable (hst : Staged machine last w)

include hst

/-- Whoever is inside the program is one of the threads. -/
theorem index_lt_of_inside (hu : w.ledger.table.Inside u) : u.index < w.workers.size := by
  refine Nat.lt_of_not_le fun hle => ?_
  have habsent : (w.crew last).place u = .absent := World.place_crew_of_none (Array.getElem?_eq_none hle)
  by_cases he : u = w.ledger.executor
  · subst he
    obtain ⟨s, hs, -⟩ := hu
    obtain ⟨c, l, hp⟩ := hst.stationed.executor_outside (hst.stationed.sound.balanced.ne_nobody hs)
    exact nomatch habsent.symm.trans hp
  · obtain ⟨b, hb⟩ := hst.stationed.waits u hu he
    exact nomatch habsent.symm.trans hb

/-- So is whoever has its context carried. -/
theorem carried_index_lt {l : Option (Resume Cursor)} (hp : (w.crew last).place me = .outside c l) :
    (w.ledger.carried me).index < w.workers.size := by
  by_cases he : me = w.ledger.executor
  · rw [Ledger.carried_executor he]
    have hn := hst.stationed.executor_runs (he ▸ hst.stationed.ne_nobody_of_outside hp)
    exact hst.index_lt_of_inside (hst.stationed.sound.balanced.runner_inside hn)
  · rw [Ledger.carried_of_ne he]
    obtain ⟨x, hx, -⟩ := World.holds_of_outside hp
    exact World.lt_size hx

/-- Without the executor's mark a thread is away. -/
theorem isAway_of_unmarked (hwired : machine.Wired) {l : Option (Resume Cursor)}
    (hp : (w.crew last).place me = .outside c l) (hc : machine.role c = 0) :
    w.ledger.isAway (w.ledger.carried me) = true := by
  have hcarried := hst.carried_of_unmarked hwired hp hc
  have hlt : me.index < w.ledger.table.capacity :=
    Nat.lt_of_lt_of_le (hcarried ▸ hst.carried_index_lt hp) hst.size_le
  rw [hcarried]
  exact Ledger.isAway_of (hst.marked.away_of_plain hst.stationed hlt hp (hwired.role c ▸ hc))

/-- With it, a thread carries the context of a runner that is not. -/
theorem isAway_of_marked (hwired : machine.Wired) {l : Option (Resume Cursor)}
    (hp : (w.crew last).place me = .outside c l) (hc : machine.role c ≠ 0) :
    w.ledger.isAway (w.ledger.carried me) = false := by
  rw [(hst.carried_of_marked hwired hp hc).2]
  exact Ledger.isAway_of_not (hst.marked.not_away_of_mark hst.stationed hp (hwired.role c ▸ hc))

end Staged

/-! ## Worlds whose programs stand somewhere -/

/-- **The programs of a world stand as `stand` says**: there are the contexts that count, and the cursors
of the threads that have not started, and whoever is about to call the arbiter stands where that is
asked for. -/
structure Stands (machine : Machine σ π) (stand : ThreadId → Stand) (w : World σ π) : Prop where
  custody : ∀ last, Custody (At stand) (w.crew last)
  starts : ∀ (i : Nat) (x : Worker), w.workers[i]? = some x → x.stage = .due .start →
    At stand (.ofIndex i) x.cursor
  ready : ∀ (i : Nat) (x : Worker), w.workers[i]? = some x → machine.Ready x

namespace Stands

variable (hst : Staged machine last w) (h : Stands machine stand w) (hx : w.workers[i]? = some x)

include hst h hx

/-- A thread that is in some code has the program in hand that it carries. -/
theorem at_carried {l : Option (Resume Cursor)} (hp : x.place (last (.ofIndex i)) = .outside x.cursor l) :
    At stand (w.ledger.carried (.ofIndex i)) x.cursor :=
  (h.custody last).held _ _ _ ((hst.place_eq hx).trans hp)

omit hst in
/-- A thread that has done something is ready again, and so are the others. -/
theorem ready_withWorker (ha : Acts machine (.ofIndex i) w x x' v) (j : Nat) (y : Worker)
    (hy : (v.withWorker i x').workers[j]? = some y) : machine.Ready y := by
  obtain ⟨rfl, rfl⟩ | ⟨-, hy⟩ := World.of_workers_withWorker ha.workers_eq hy
  · exact ha.ready (h.ready _ x hx)
  · exact h.ready j y hy

/-- **What a thread does by itself moves the program in its hand** and no other. -/
theorem run (hr : Runs machine (.ofIndex i) w x x' v) :
    Stands machine (restand stand (w.ledger.carried (.ofIndex i)) x') (v.withWorker i x') where
  custody last' := by
    obtain ⟨l, hl⟩ := hr.custody hst (hst.place_eq hx) (h.custody last) hr.at_own
      fun t d ht => at_other ht
    rw [← World.crew_withWorker last hr.workers_eq (World.lt_size hx) hst.size_le_nobody] at hl
    exact World.custody_crew hl last'
  starts j y hy hstart := by
    have hp := (hst.place_eq hx).trans (hr.places _).1
    obtain ⟨rfl, rfl⟩ | ⟨-, hy⟩ := World.of_workers_withWorker hr.workers_eq hy
    · exact absurd hstart (Acts.runs hr).not_due_start
    · refine at_other (fun he => ?_) (h.starts j y hy hstart)
      refine hst.carried_ne_away hp ?_ he.symm
      rw [hst.place_eq hy, Worker.place, hstart]
  ready := h.ready_withWorker hx (.runs hr)

/-- **A call of the arbiter, or the end of a wait, moves no program.** -/
theorem call (hleave : machine.arbiter.scheduler.LeavesContexts)
    (ha : Acts machine (.ofIndex i) w x x' v) (hcall : ¬Runs machine (.ofIndex i) w x x' v) :
    Stands machine stand (v.withWorker i x') where
  custody last' := by
    obtain ⟨l, hl⟩ := ha.custody_of_call hcall hst hleave (ignores_at _ _) (hst.place_eq hx)
      (h.starts i x hx) (h.custody last)
    rw [← World.crew_withWorker last ha.workers_eq (World.lt_size hx) hst.size_le_nobody] at hl
    exact World.custody_crew hl last'
  starts j y hy hstart := by
    obtain ⟨rfl, rfl⟩ | ⟨-, hy⟩ := World.of_workers_withWorker ha.workers_eq hy
    · exact absurd hstart ha.not_due_start
    · exact h.starts j y hy hstart
  ready := h.ready_withWorker hx ha

end Stands

/-- Before the first beat every program stands at its start. -/
theorem stands_of_boot {asked : CodeUnit → List Placement} {initial : Rotation} {config : Config}
    {policy : Policy Rotation π} {q : π} {programs : List Program} {machine : Machine Rotation π}
    {w₀ : World Rotation π}
    (h : boot (Rotation.placing asked) initial config policy q programs = .ok (machine, w₀)) :
    Stands machine (fun _ => {}) w₀ where
  custody _ := World.custody_crew (custody_of_boot h) _
  starts i x hx _ := by
    obtain ⟨-, rfl⟩ := (workers_of_boot h).mp hx
    exact ⟨rfl, rfl⟩
  ready i x hx := by
    obtain ⟨-, rfl⟩ := (workers_of_boot h).mp hx
    trivial

end SoleRunner.Simulation
