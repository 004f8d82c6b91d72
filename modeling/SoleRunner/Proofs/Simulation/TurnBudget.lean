import Mathlib.Algebra.BigOperators.Group.Finset.Basic
import SoleRunner.Proofs.HandOff
import SoleRunner.Proofs.Simulation.Standing

/-!
# Proofs/Simulation/TurnBudget — a run takes a bounded number of turns

Whatever the policy decides and whoever is given the next turn, a run stops after `turnBound` turns
(`turns_le_turnBound`).  No thread comes nearer to its end with every turn: its context may be run by
another one, and a thread may be woken for nothing and sleep again.  What falls with every turn is a sum
over the whole world (`Machine.budget`): what the programs may still cost from where they stand, what is
set aside for the exits and switches that threads are about to make, and the permits that are there.

* `Runs.budget_le` — what a thread does by itself is paid for by the place of the context in its hand;
* `Acts.budget_of_call` — a call or the end of a wait is paid for by a turn.
-/

namespace SoleRunner

/-! ## What a program may cost -/

namespace Program

/-- The turns that operations may take, whoever runs them: one for each operation to compute, three for
each system call, and two to leave at the end. -/
def price (ops : Program) : Nat := ops.count .compute + 3 * ops.count .syscall + 2

/-- **What the rest of a program may cost.**  Whoever is away makes a system call at once, and has left;
it has to arrive before it computes.  Otherwise a system call takes a departure and a permit, and before
an operation there may be a switch, unless the hook there has run. -/
def cost (away hooked : Bool) : Program → Nat
  | [] => if away then 0 else 2
  | .compute :: ops => (if away || !hooked then 1 else 0) + price ops
  | .syscall :: ops => (if away then 0 else if hooked then 2 else 3) + price ops

variable {ops : Program} {away hooked : Bool}

theorem price_compute : price (.compute :: ops) = 1 + price ops := by
  simp only [price, List.count_cons_self, List.count_cons_of_ne (by decide : Op.compute ≠ .syscall)]
  omega

theorem price_syscall : price (.syscall :: ops) = 3 + price ops := by
  simp only [price, List.count_cons_self, List.count_cons_of_ne (by decide : Op.syscall ≠ .compute)]
  omega

theorem cost_le_price (away hooked : Bool) (ops : Program) : cost away hooked ops ≤ price ops := by
  cases ops with
  | nil => cases away <;> simp [cost, price]
  | cons op ops =>
    cases op with
    | compute =>
      rw [cost, price_compute]
      split <;> omega
    | syscall =>
      rw [cost, price_syscall]
      split
      · omega
      · split <;> omega

end Program

namespace Ledger

variable {C σ : Type} {m m' : Ledger C σ} {tid : ThreadId}

/-- How many permits there are. -/
def permitCount (m : Ledger C σ) : Nat := m.permits.count true

theorem permitCount_congr (h : m'.permits = m.permits) : m'.permitCount = m.permitCount :=
  congrArg (Array.count true) h

theorem permitCount_post {i : Nat} (h : m'.permits = m.permits.setIfInBounds i true) :
    m'.permitCount ≤ m.permitCount + 1 := by
  rw [permitCount, h, permitCount, Array.setIfInBounds]
  split
  · rw [Array.count_set]
    simp
  · omega

/-- A wait that returns takes a permit. -/
theorem permitCount_woken (h : m.hasPermit tid) : (m.woken tid).permitCount + 1 ≤ m.permitCount := by
  rw [hasPermit] at h
  have hlt : tid.index < m.permits.size := by
    refine Nat.lt_of_not_le fun hle => ?_
    rw [Array.getElem?_eq_none hle] at h
    exact Bool.false_ne_true h
  rw [Array.getElem?_eq_getElem hlt, Option.getD_some] at h
  have hpos : 0 < m.permits.count true :=
    Array.count_pos_iff.mpr (h ▸ Array.getElem_mem hlt)
  rw [permitCount, woken_permits, permitCount, Array.setIfInBounds, dif_pos hlt, Array.count_set, h,
    if_pos (beq_self_eq_true true), if_neg (by decide)]
  omega

end Ledger

namespace Simulation

open Finset (range)
open Crew (Custody)
open Machine

/-- The turns of a run are what its programs cost, with a start and an exit for each. -/
theorem turnBound_eq_sum (programs : List Program) :
    turnBound programs = ∑ i ∈ range programs.length, ((programs[i]?.getD []).price + 2) := by
  induction programs with
  | nil => rfl
  | cons p ps ih =>
    rw [turnBound, ih, List.length_cons, Finset.sum_range_succ']
    simp only [List.getElem?_cons_succ, List.getElem?_cons_zero, Option.getD_some, Program.price]
    omega

/-- **What is set aside for what a thread is doing**: a turn for its exit, and another one while its start
or a switch is ahead of it. -/
def Stage.cost : Stage → Nat
  | .due .start | .due .switch | .decided _ => 2
  | .ended | .crashed => 0
  | .due _ | .going | .asleep | .awake => 1

variable {σ π : Type} {w v : World σ π} {machine : Machine σ π} {me u : ThreadId} {c : Cursor}
  {x x' : Worker} {i j n : Nat} {last : ThreadId → Option (Resume Cursor)} {m m' : Ledger Cursor σ}

/-! ## Sums over the threads -/

/-- A sum moves as its one summand that changes. -/
theorem sum_range_le {f g : Nat → Nat} {a b : Nat} (hj : j < n) (h : f j + a ≤ g j + b)
    (hother : ∀ i, i < n → i ≠ j → f i = g i) :
    ∑ i ∈ range n, f i + a ≤ ∑ i ∈ range n, g i + b := by
  have hmem : j ∈ range n := Finset.mem_range.mpr hj
  have hrest : ∑ i ∈ (range n).erase j, f i = ∑ i ∈ (range n).erase j, g i :=
    Finset.sum_congr rfl fun i hi =>
      hother i (Finset.mem_range.mp (Finset.mem_of_mem_erase hi)) (Finset.ne_of_mem_erase hi)
  rw [← Finset.add_sum_erase _ f hmem, ← Finset.add_sum_erase _ g hmem, hrest]
  omega

/-- What is set aside for all threads. -/
def World.stageCost (w : World σ π) : Nat :=
  ∑ i ∈ range w.workers.size, (w.workers[i]?.map fun x => x.stage.cost).getD 0

theorem World.stageCost_withWorker (hv : v.workers = w.workers) (hx : w.workers[i]? = some x)
    (x' : Worker) : (v.withWorker i x').stageCost + x.stage.cost ≤ w.stageCost + x'.stage.cost := by
  have hi := lt_size hx
  rw [stageCost, stageCost, size_withWorker hv]
  refine sum_range_le hi ?_ fun j _ hne => ?_
  · rw [workers_withWorker_self (hv ▸ hi), hx]
    exact Nat.le_of_eq (Nat.add_comm ..)
  · rw [withWorker, Array.getElem?_setIfInBounds_ne hne.symm, hv]

/-! ## Budgets -/

namespace Machine

/-- What program `u` may still cost. -/
def costOf (machine : Machine σ π) (m : Ledger Cursor σ) (stand : ThreadId → Stand) (u : ThreadId) :
    Nat :=
  Program.cost (m.isAway u) (stand u).hooked ((machine.program u).drop (stand u).pc)

/-- What all programs may still cost. -/
def costs (machine : Machine σ π) (m : Ledger Cursor σ) (stand : ThreadId → Stand) (threads : Nat) :
    Nat :=
  ∑ i ∈ range threads, machine.costOf m stand (.ofIndex i)

/-- **The turns that a world may still take.** -/
def budget (machine : Machine σ π) (stand : ThreadId → Stand) (w : World σ π) : Nat :=
  machine.costs w.ledger stand w.workers.size + w.stageCost + w.ledger.permitCount

/-- A program costs what its cursor has still to run. -/
theorem costOf_of_at {stand : ThreadId → Stand} (h : At stand u c) :
    machine.costOf m stand u = (machine.remaining c).cost (m.isAway u) c.hooked := by
  obtain ⟨rfl, hstand⟩ := h
  rw [costOf, hstand]
  rfl

/-- Where one program costs something else, all programs do by as much. -/
theorem costs_le {stand stand' : ThreadId → Stand} {a b : Nat} (hn : n ≤ ThreadId.nobody.index)
    (hu : u.index < n)
    (h : machine.costOf m' stand' u + a ≤ machine.costOf m stand u + b)
    (haway : ∀ t, t ≠ u → (m'.Away t ↔ m.Away t)) (hstand : ∀ t, t ≠ u → stand' t = stand t) :
    machine.costs m' stand' n + a ≤ machine.costs m stand n + b := by
  refine sum_range_le hu ?_ fun i hi hne => ?_
  · rw [ThreadId.ofIndex_index]
    exact h
  · have hne' : ThreadId.ofIndex i ≠ u := by
      rintro rfl
      exact hne (ThreadId.index_ofIndex (Nat.lt_of_lt_of_le hi hn)).symm
    rw [costOf, costOf, hstand _ hne', Ledger.isAway_congr (haway _ hne')]

/-- Programs cost the same as long as the same threads are away. -/
theorem costs_congr {stand : ThreadId → Stand} (haway : ∀ t, m'.Away t ↔ m.Away t) :
    machine.costs m' stand n = machine.costs m stand n :=
  Finset.sum_congr rfl fun i _ => by rw [costOf, costOf, Ledger.isAway_congr (haway _)]

/-- What is left at a place, by the operation there. -/
theorem remaining_of_nextOp (machine : Machine σ π) (c : Cursor) :
    machine.nextOp c = none ∧ machine.remaining c = [] ∨
      ∃ op, machine.nextOp c = some op ∧
        machine.remaining c = op :: machine.remaining c.advance := by
  cases h : machine.remaining c with
  | nil => exact .inl ⟨by rw [nextOp, h]; rfl, rfl⟩
  | cons op ops => exact .inr ⟨op, by rw [nextOp, h]; rfl, by rw [remaining_advance h]⟩

theorem remaining_of_some {op : Op} (h : machine.nextOp c = some op) :
    machine.remaining c = op :: machine.remaining c.advance := by
  obtain ⟨hnone, -⟩ | ⟨op', hop, hrest⟩ := machine.remaining_of_nextOp c
  · nomatch hnone.symm.trans h
  · cases hop.symm.trans h
    exact hrest

/-- **What a thread does by itself is paid for by the place of the context in its hand.** -/
theorem Runs.budget_le {away : Bool} (h : Runs machine me w x x' v)
    (hplain : machine.role x.cursor = 0 → away = true)
    (hmark : machine.role x.cursor ≠ 0 → away = false) :
    (machine.remaining x'.cursor).cost away x'.cursor.hooked + x'.stage.cost ≤
      (machine.remaining x.cursor).cost away x.cursor.hooked + x.stage.cost := by
  cases h with
  | departs => exact Nat.le_refl _
  | finishes => exact Nat.le_refl _
  | ships => exact Nat.le_refl _
  | @arrives c hop hrole =>
    rw [hplain hrole, show machine.remaining { c with hooked := true } = machine.remaining c from rfl,
      remaining_of_some hop]
    exact Nat.le_refl _
  | computes hop hrole =>
    rw [remaining_of_some hop]
    exact Nat.add_le_add_right
      (Nat.le_trans (Program.cost_le_price _ _ _) (Nat.le_add_left _ _)) _
  | syscalls hop hrole =>
    rw [remaining_of_some hop]
    exact Nat.add_le_add_right
      (Nat.le_trans (Program.cost_le_price _ _ _) (Nat.le_add_left _ _)) _
  | crashes => exact Nat.le_succ _
  | @decides c next s p hrole hpolicy hhook hop =>
    obtain ⟨hnone, -⟩ | ⟨op, -, hrest⟩ := machine.remaining_of_nextOp c
    · exact absurd hnone hop
    · change Program.cost away true (machine.remaining c) + 2 ≤
        Program.cost away c.hooked (machine.remaining c) + 1
      rw [hmark hrole, hooked_of_not_unhooked hhook, hrest]
      cases op with
      | compute =>
        change 0 + _ + 2 ≤ 1 + _ + 1
        omega
      | syscall =>
        change 2 + _ + 2 ≤ 3 + _ + 1
        omega
  | turns => exact Nat.le_refl _
  | stays => exact Nat.le_succ _

end Machine

/-! ## Calls -/

variable {stand stand' : ThreadId → Stand}

namespace Staged

variable (hst : Staged machine last w)

include hst

/-- **An arrival pays for its turn**: its thread need not arrive again. -/
theorem costs_of_arrive (hwired : machine.Wired) {l : Option (Resume Cursor)} {a : Arrival Cursor}
    (hp : (w.crew last).place me = .outside c l) (hc : machine.role c = 0)
    (hready : machine.Ready ⟨c, .due .arrival⟩) (hat : At stand (w.ledger.carried me) c)
    (ho : Arbiter.Arrives machine.arbiter me c w.ledger (.ok a m)) :
    machine.costs m stand w.workers.size + 1 ≤ machine.costs w.ledger stand w.workers.size := by
  obtain ⟨hop, hhooked⟩ := hready
  have haway := hst.isAway_of_unmarked hwired hp hc
  have hlt := hst.carried_index_lt hp
  rw [hst.carried_of_unmarked hwired hp hc] at hat haway hlt
  have hiff (t : ThreadId) := ho.away_iff (u := t) hst.stationed.sound.balanced hst.undisturbed.settled
  have hback : m.isAway me = false := Ledger.isAway_of_not fun h => ((hiff me).mp h).2 rfl
  refine costs_le (b := 0) hst.size_le_nobody hlt ?_ (fun t ht => (hiff t).trans (and_iff_left ht))
    fun _ _ => rfl
  rw [costOf_of_at hat, costOf_of_at hat, hback, haway, hhooked, remaining_of_some hop]
  change 0 + _ + 1 ≤ 1 + _ + 0
  omega

/-- **A departure pays for its turn, and for the permit that it may post**: the runner is away. -/
theorem costs_of_depart (hwired : machine.Wired) {l : Option (Resume Cursor)} {r : Resume Cursor}
    (hp : (w.crew last).place me = .outside c l) (hc : machine.role c ≠ 0)
    (hready : machine.Ready ⟨c, .due .departure⟩) (hat : At stand (w.ledger.carried me) c)
    (ho : Arbiter.Departs machine.arbiter me c w.ledger (.ok r m)) :
    machine.costs m stand w.workers.size + 2 ≤ machine.costs w.ledger stand w.workers.size := by
  have haway := hst.isAway_of_marked hwired hp hc
  have hlt := hst.carried_index_lt hp
  obtain ⟨-, hrunner⟩ := hst.carried_of_marked hwired hp hc
  have hiff (t : ThreadId) := ho.away_iff (u := t) hst.stationed.sound.balanced hst.undisturbed.settled
  have hgone : m.isAway (w.ledger.carried me) = true := Ledger.isAway_of ((hiff _).mpr (.inr hrunner))
  refine costs_le (b := 0) hst.size_le_nobody hlt ?_
    (fun t ht => (hiff t).trans (or_iff_left (hrunner ▸ ht))) fun _ _ => rfl
  rw [costOf_of_at hat, costOf_of_at hat, hgone, haway]
  obtain ⟨-, hrest⟩ | ⟨op, hop, hrest⟩ := machine.remaining_of_nextOp c
  · rw [hrest]
    exact Nat.le_refl _
  · rw [hrest]
    cases op with
    | compute => exact absurd hop hready
    | syscall =>
      change 0 + _ + 2 ≤ (if c.hooked then 2 else 3) + _ + 0
      split <;> omega

/-- An exit costs nothing more. -/
theorem costs_of_finish (hwired : machine.Wired) {l : Option (Resume Cursor)}
    (hp : (w.crew last).place me = .outside c l) (hc : machine.role c = 0)
    (hop : machine.nextOp c = none) (hat : At stand (w.ledger.carried me) c)
    (ho : Arbiter.Finishes machine.arbiter me w.ledger (.ok () m)) :
    machine.costs m stand w.workers.size ≤ machine.costs w.ledger stand w.workers.size := by
  have hlt := hst.carried_index_lt hp
  rw [hst.carried_of_unmarked hwired hp hc] at hat hlt
  have hiff (t : ThreadId) := ho.away_iff (u := t) hst.stationed.sound.balanced
  have hgone : m.isAway me = true := Ledger.isAway_of ((hiff me).mpr (.inr rfl))
  have hrest : machine.remaining c = [] := List.head?_eq_none_iff.mp hop
  refine costs_le (a := 0) (b := 0) hst.size_le_nobody hlt ?_
    (fun t ht => (hiff t).trans (or_iff_left ht)) fun _ _ => rfl
  rw [costOf_of_at hat, hgone, hrest]
  exact Nat.zero_le _

end Staged

end Simulation

namespace Arbiter

variable {C σ : Type} [Context C] {arb : Arbiter C σ} {m m' : Ledger C σ} {tid : ThreadId} {c : C}

/-! ## Permits -/

theorem permits_of_starts {c' : C} (ho : Starts arb tid c m (.ok c' m')) : m'.permits = m.permits := by
  cases ho with
  | started => rfl

theorem permits_of_switches {r : Resume C} (ho : Switches arb tid c m (.ok r m')) :
    m'.permits = m.permits := by
  cases ho with
  | switched => simp

omit [Context C] in
theorem permits_of_finishes (ho : Finishes arb tid m (.ok () m')) : m'.permits = m.permits := by
  cases ho with
  | outside => rfl
  | last => rfl

/-- A departure posts at most one permit. -/
theorem permitCount_of_departs {r : Resume C} (ho : Departs arb tid c m (.ok r m')) :
    m'.permitCount ≤ m.permitCount + 1 := by
  cases ho with
  | shipped => exact Ledger.permitCount_post (by simp; rfl)
  | handedOver => exact Ledger.permitCount_post (by simp; rfl)
  | owed => exact Nat.le_succ _

end Arbiter

namespace Simulation

variable {σ π : Type} {w w' v : World σ π} {machine : Machine σ π} {me u : ThreadId} {c : Cursor}
  {x x' : Worker} {i n : Nat} {last : ThreadId → Option (Resume Cursor)}
  {stand stand' : ThreadId → Stand}

open Crew (Custody)
open Machine

/-! ## One beat -/

/-- A beat is paid for by what it changes: the programs' costs, what is set aside for its thread, and the
permits. -/
theorem budget_withWorker {a b d e k : Nat} (hv : v.workers = w.workers) (hx : w.workers[i]? = some x)
    (hcosts : machine.costs v.ledger stand' w.workers.size + a ≤
      machine.costs w.ledger stand w.workers.size + b)
    (hpermits : v.ledger.permitCount + d ≤ w.ledger.permitCount + e)
    (hk : x'.stage.cost + b + e + k ≤ x.stage.cost + a + d) :
    machine.budget stand' (v.withWorker i x') + k ≤ machine.budget stand w := by
  have hstages := World.stageCost_withWorker hv hx x'
  rw [budget, budget, World.size_withWorker hv, World.ledger_withWorker]
  omega

theorem Stage.cost_ofArrival (c : Cursor) (a : Arrival Cursor) :
    (Worker.ofArrival c a).stage.cost = 1 := by
  cases a <;> rfl

/-- The turn of thread `i`, if it waits for one. -/
def World.turnOf (w : World σ π) (i : Nat) : Nat := if (w.pointOf i).isSome then 1 else 0

theorem World.turnOf_le (w : World σ π) (i : Nat) : w.turnOf i ≤ 1 := by
  unfold turnOf
  split <;> decide

theorem World.turnOf_of_some (hx : w.workers[i]? = some x) (hdue : ∀ p, x.stage ≠ .due p)
    (hasleep : x.stage = .asleep → w.ledger.hasPermit (.ofIndex i) = false) : w.turnOf i = 0 := by
  have hpoint : w.pointOf i = none := by
    rw [pointOf_of_some hx]
    split
    next p hs => exact absurd hs (hdue p)
    next hs => rw [hasleep hs]; rfl
    next => rfl
  rw [turnOf, hpoint]
  rfl

namespace Machine

/-- **A call and the end of a wait are paid for by a turn**, and nothing else that a thread does with the
arbiter costs anything. -/
theorem Acts.budget_of_call (hwired : machine.Wired) (hst : Staged machine last w)
    (hx : w.workers[i]? = some x) (hready : machine.Ready x) (hc : Custody (At stand) (w.crew last))
    (h : Acts machine (.ofIndex i) w x x' v) (hcall : ¬ Runs machine (.ofIndex i) w x x' v) :
    machine.budget stand (v.withWorker i x') + w.turnOf i ≤ machine.budget stand w := by
  have hb := hst.stationed.sound.balanced
  have hset := hst.undisturbed.settled
  have hfits := hst.fits i x hx
  have hp := hst.place_eq hx
  have hturn := w.turnOf_le i
  have hsame {m : Ledger Cursor σ} (hm : m.permits = w.ledger.permits) :
      m.permitCount + 0 ≤ w.ledger.permitCount + 0 := Nat.le_of_eq (Ledger.permitCount_congr hm)
  have hidle {m : Ledger Cursor σ} (hm : ∀ t, m.Away t ↔ w.ledger.Away t) :
      machine.costs m stand w.workers.size + 0 ≤ machine.costs w.ledger stand w.workers.size + 0 :=
    Nat.le_of_eq (costs_congr hm)
  cases h with
  | start h =>
    have ho := h ▸ Arbiter.startThread_outcome ..
    refine budget_withWorker rfl hx (hidle fun _ => ho.away_iff)
      (hsame (Arbiter.permits_of_starts ho)) ?_
    change 1 + 0 + 0 + _ ≤ 2 + 0 + 0
    omega
  | @arrive c a m h =>
    have ho := h ▸ Arbiter.arrive_outcome hb
    have hcosts := hst.costs_of_arrive hwired hp hfits hready (hc.held _ _ _ hp) ho
    have hm : m.permits = w.ledger.permits := Crew.permits_of_arrives (w := w.crew last) ho
    refine budget_withWorker (b := 0) rfl hx hcosts (hsame hm) ?_
    rw [Stage.cost_ofArrival]
    change 1 + 0 + 0 + _ ≤ 1 + 1 + 0
    omega
  | depart h =>
    have ho := h ▸ Arbiter.depart_outcome hb
    have hcosts := hst.costs_of_depart hwired hp hfits hready (hc.held _ _ _ hp) ho
    refine budget_withWorker (b := 0) (d := 0) rfl hx hcosts (Arbiter.permitCount_of_departs ho) ?_
    change 1 + 0 + 1 + _ ≤ 1 + 2 + 0
    omega
  | switch h =>
    have ho := h ▸ Arbiter.switch_outcome hb
    refine budget_withWorker rfl hx (hidle fun _ => ho.away_iff hst.stationed.sound hset)
      (hsame (Arbiter.permits_of_switches ho)) ?_
    change 1 + 0 + 0 + _ ≤ 2 + 0 + 0
    omega
  | @finish c m log h =>
    have ho := h ▸ Arbiter.endThread_outcome ..
    have hcosts := hst.costs_of_finish hwired hp hfits.1 hfits.2 (hc.held _ _ _ hp) ho
    have hm : m.permits = w.ledger.permits := Arbiter.permits_of_finishes ho
    refine budget_withWorker (a := 0) (b := 0) rfl hx hcosts (hsame hm) ?_
    change 0 + 0 + 0 + _ ≤ 1 + 0 + 0
    omega
  | wake h =>
    refine budget_withWorker (e := 0) rfl hx (hidle fun _ => Iff.rfl) (Ledger.permitCount_woken h) ?_
    change 1 + 0 + 0 + _ ≤ 1 + 0 + 1
    omega
  | @look c a m h =>
    have ho := h ▸ Arbiter.lookAgain_outcome hb
    have hm : m.permits = w.ledger.permits := Crew.permits_of_looks (w := w.crew last) ho
    refine budget_withWorker rfl hx (hidle fun _ => ho.away_iff) (hsame hm) ?_
    rw [Stage.cost_ofArrival, World.turnOf_of_some hx (fun _ => nofun) nofun]
    exact Nat.le_refl _
  | runs h => exact absurd h hcall
  | rests hs =>
    have hzero : w.turnOf i = 0 := by
      refine World.turnOf_of_some hx (fun p hp => ?_) fun hasleep => ?_
      · rw [hp] at hs
        simp at hs
      · obtain ⟨-, hpermit⟩ | hs | hs := hs
        · exact hpermit
        · exact nomatch hs.symm.trans hasleep
        · exact nomatch hs.symm.trans hasleep
    rw [World.withWorker_self hx, hzero]
    exact Nat.le_refl _

theorem Runs.turnOf_eq (hx : w.workers[i]? = some x) (h : Runs machine me w x x' v) :
    w.turnOf i = 0 := by
  cases h <;> exact World.turnOf_of_some hx (fun _ => nofun) nofun

/-- **What a thread does by itself costs nothing more.** -/
theorem Runs.budget_of_own (hwired : machine.Wired) (hst : Staged machine last w)
    (hx : w.workers[i]? = some x) (hc : Custody (At stand) (w.crew last))
    (h : Runs machine (.ofIndex i) w x x' v) :
    machine.budget (restand stand (w.ledger.carried (.ofIndex i)) x') (v.withWorker i x') ≤
      machine.budget stand w := by
  have hp := (hst.place_eq hx).trans (h.places _).1
  have hat : At stand (w.ledger.carried (.ofIndex i)) x.cursor := hc.held _ _ _ hp
  obtain ⟨s, hv⟩ := h.ledger_eq
  have haway (t : ThreadId) : v.ledger.Away t ↔ w.ledger.Away t := by rw [hv]; exact Iff.rfl
  have hpermits : v.ledger.permitCount = w.ledger.permitCount := Ledger.permitCount_congr (by rw [hv])
  refine budget_withWorker (k := 0) (d := 0) (e := 0) (a := x'.stage.cost) (b := x.stage.cost)
    h.workers_eq hx ?_ (Nat.le_of_eq hpermits) (by omega)
  refine costs_le hst.size_le_nobody (hst.carried_index_lt hp) ?_ (fun t _ => haway t)
    fun t ht => Function.update_of_ne ht ..
  rw [costOf_of_at (h.at_own hat), costOf_of_at hat, Ledger.isAway_congr (haway _)]
  exact h.budget_le (hst.isAway_of_unmarked hwired hp) (hst.isAway_of_marked hwired hp)

end Machine

end Simulation

end SoleRunner
