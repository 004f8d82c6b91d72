import SoleRunner.Proofs.Placements
import SoleRunner.Proofs.Simulation.Staged
import SoleRunner.Scheduler.Rotation
import SoleRunner.Simulation.Policies

/-!
# Proofs/Simulation/Boot — a machine before its first turn

With the rotation as its scheduler, a machine can be booted exactly if its settings are good and every
switch point that the rotation asks for is before an operation of its program.  Then the arbiter has the
first two registers of the substrate, nothing has happened on its ledger, every thread is at its start,
and the world is in order.
-/

namespace SoleRunner

theorem Rotation.placements_valid (u : CodeUnit) : ∀ q ∈ Rotation.placements u, q.IsValid u := by
  intro q hq
  obtain ⟨i, hi, rfl⟩ := List.mem_map.mp hq
  exact ⟨rfl, List.mem_range.mp (List.mem_filter.mp hi).1⟩

namespace Simulation

open Critical

variable {π : Type} {asked : CodeUnit → List Placement} {initial : Rotation} {config : Config}
  {policy : Policy Rotation π} {p : π} {programs : List Program} {machine : Machine Rotation π}
  {w : World Rotation π} {arb : Arbiter Cursor Rotation} {m m' : Ledger Cursor Rotation}
  {i : Nat} {x : Worker}

/-! ## The arbiter -/

/-- The arbiter of a simulation. -/
def arbiterOf (asked : CodeUnit → List Placement) (config : Config) : Arbiter Cursor Rotation :=
  ⟨config, ⟨0⟩, ⟨1⟩, Rotation.placing asked⟩

theorem create_simulated (asked : CodeUnit → List Placement) (initial : Rotation)
    (hc : config.problem? = none) : ∃ setup,
    Arbiter.create (Rotation.placing asked) initial config { substrate := .simulated } =
      .ok (arbiterOf asked config, .fresh config.capacity initial) setup := by
  unfold Arbiter.create
  simp only [hc]
  exact ⟨_, rfl⟩

theorem install_simulated (asked : CodeUnit → List Placement) (initial : Rotation)
    (hc : config.problem? = none) : ∃ setup,
    Arbiter.install (Rotation.placing asked) initial config { substrate := .simulated } =
        .ok (arbiterOf asked config, .fresh config.capacity initial) setup ∧
      wiring setup.substrate = .ok (arbiterOf asked config, ⟨0⟩, ⟨1⟩) := by
  unfold Arbiter.install Arbiter.create
  simp only [hc]
  exact ⟨_, rfl, rfl⟩

theorem install_refused (asked : CodeUnit → List Placement) (initial : Rotation)
    {problem : Config.Problem} (hc : config.problem? = some problem) :
    ∃ setup : Setup Cursor Rotation,
      Arbiter.install (Rotation.placing asked) initial config { substrate := .simulated } =
        .error (.invalidConfig problem) setup := by
  unfold Arbiter.install Arbiter.create
  simp only [hc]
  exact ⟨_, rfl⟩

/-! ## The plans -/

/-- The switch points that are asked for in programs, numbered from `index`, are valid. -/
def ValidFrom (asked : CodeUnit → List Placement) (index : Nat) : List Program → Prop
  | [] => True
  | p :: ps => (∀ q ∈ asked (p.unit index), q.IsValid (p.unit index)) ∧ ValidFrom asked (index + 1) ps

/-- Planning touches the statistics and the log only, and succeeds if all requests are valid. -/
theorem planAll_outcome (arb : Arbiter Cursor Rotation) (harb : arb.scheduler = Rotation.placing asked)
    (index : Nat) (ps : List Program) (m : Ledger Cursor Rotation) :
    (ValidFrom asked index ps ∧
        ∃ plans stats log, planAll arb index ps m = .ok plans { m with stats, log }) ∨
      ¬ ValidFrom asked index ps ∧ ∃ e m', planAll arb index ps m = .error e m' := by
  induction ps generalizing index m with
  | nil => exact .inl ⟨trivial, _, _, _, rfl⟩
  | cons p ps ih =>
    have hiff := arb.planUnit_ok_iff (p.unit index) m
    obtain ⟨e, hp⟩ | ⟨plan, log, hp⟩ := arb.planUnit_apply (p.unit index) m
    · rw [hp, harb] at hiff
      refine .inr ⟨fun hv => ?_, e, _, by rw [planAll, bind_of_error hp]⟩
      obtain ⟨_, _, h⟩ := hiff.mpr hv.1
      nomatch h
    · rw [hp, harb] at hiff
      have hvalid : ∀ q ∈ asked (p.unit index), q.IsValid (p.unit index) := hiff.mp ⟨_, _, rfl⟩
      rw [planAll, bind_of_ok hp, harb]
      obtain ⟨hps, plans, stats, log', hrest⟩ | ⟨hps, e, m', hrest⟩ := ih (index + 1) _
      · exact .inl ⟨⟨hvalid, hps⟩, plan :: plans, stats, log', by rw [bind_of_ok hrest]; rfl⟩
      · exact .inr ⟨fun hv => hps hv.2, e, m', by rw [bind_of_error hrest]⟩

/-- Each of the programs gets a plan that serves what is asked for in it. -/
theorem serves_of_planAll (harb : arb.scheduler = Rotation.placing asked) {index : Nat} {ps : List Program}
    {plans : List Plan} (h : planAll arb index ps m = .ok plans m') {i : Nat} {p : Program}
    (hp : ps[i]? = some p) :
    ∃ plan, plans[i]? = some plan ∧ plan.Serves (p.unit (index + i)) (asked (p.unit (index + i))) := by
  induction ps generalizing index plans m i with
  | nil => nomatch hp
  | cons p' ps ih =>
    obtain ⟨e, hplan⟩ | ⟨plan, log, hplan⟩ := arb.planUnit_apply (p'.unit index) m
    · rw [planAll, bind_of_error hplan] at h
      nomatch h
    · rw [planAll, bind_of_ok hplan] at h
      obtain ⟨plans, hrest, rfl⟩ := of_answer h
      cases i with
      | zero =>
        obtain rfl : p' = p := Option.some.inj hp
        have hserves := Arbiter.serves_of_planUnit hplan
        rw [Arbiter.requests, harb] at hserves
        exact ⟨plan, rfl, hserves⟩
      | succ i =>
        have hindex : index + 1 + i = index + (i + 1) := by omega
        exact hindex ▸ ih hrest hp

/-! ## The machine -/

/-- **When a machine can be booted, and what it is then.** -/
theorem boot_outcome (asked : CodeUnit → List Placement) (initial : Rotation) (config : Config)
    (policy : Policy Rotation π) (p : π) (programs : List Program) :
    (config.problem? = none ∧ ValidFrom asked 0 programs ∧ ∃ plans stats log,
      boot (Rotation.placing asked) initial config policy p programs = .ok
        (⟨arbiterOf asked config, policy, programs.toArray, plans, ⟨0⟩, ⟨1⟩⟩,
          .initial { Ledger.fresh config.capacity initial with stats, log } p programs.length)) ∨
    ¬ (config.problem? = none ∧ ValidFrom asked 0 programs) ∧
      ∃ e, boot (Rotation.placing asked) initial config policy p programs = .error e := by
  unfold boot
  cases hc : config.problem? with
  | some problem =>
    obtain ⟨setup, hinstall⟩ := install_refused asked initial hc
    rw [hinstall]
    exact .inr ⟨fun h => (nomatch h.1), _, rfl⟩
  | none =>
    obtain ⟨setup, hinstall, hwiring⟩ := install_simulated asked initial hc
    rw [hinstall]
    dsimp only
    rw [hwiring]
    dsimp only
    obtain ⟨hv, plans, stats, log, hplan⟩ | ⟨hv, e, m', hplan⟩ :=
      planAll_outcome (arbiterOf asked config) (rfl : _ = Rotation.placing asked) 0 programs
        (.fresh config.capacity initial)
    · refine .inl ⟨rfl, hv, plans.toArray, stats, log, ?_⟩
      rw [load, bind_of_ok hplan]
      rfl
    · refine .inr ⟨fun h => hv h.2, e, ?_⟩
      rw [load, bind_of_error hplan]

theorem of_boot (h : boot (Rotation.placing asked) initial config policy p programs = .ok (machine, w)) :
    config.problem? = none ∧ ∃ plans stats log,
      machine = ⟨arbiterOf asked config, policy, programs.toArray, plans, ⟨0⟩, ⟨1⟩⟩ ∧
      w = .initial { Ledger.fresh config.capacity initial with stats, log } p programs.length := by
  obtain ⟨hc, -, plans, stats, log, hok⟩ | ⟨-, e, herror⟩ := boot_outcome asked
    initial config policy p programs
  · cases hok.symm.trans h
    exact ⟨hc, _, _, _, rfl, rfl⟩
  · nomatch herror.symm.trans h

variable (h : boot (Rotation.placing asked) initial config policy p programs = .ok (machine, w))

include h

/-- **Each program has a plan** that serves what is asked for in it. -/
theorem serves_of_boot {q : Program} (hq : programs[i]? = some q) :
    ∃ plan, machine.plans[i]? = some plan ∧ plan.Serves (q.unit i) (asked (q.unit i)) := by
  obtain ⟨setup, hinstall, hwiring⟩ := install_simulated asked initial (of_boot h).1
  unfold boot at h
  rw [hinstall] at h
  dsimp only at h
  rw [hwiring] at h
  dsimp only at h
  split at h
  · nomatch h
  next machine' m hload =>
    cases h
    obtain ⟨plans, hplans, rfl⟩ := of_answer hload
    obtain ⟨plan, hplan, hserves⟩ := serves_of_planAll rfl hplans hq
    rw [Nat.zero_add] at hserves
    exact ⟨plan, List.getElem?_toArray.trans hplan, hserves⟩

theorem wired_of_boot : machine.Wired := by
  obtain ⟨-, plans, stats, log, rfl, rfl⟩ := of_boot h
  exact ⟨rfl, rfl, (by decide : (⟨0⟩ : Register) ≠ ⟨1⟩), (by decide : 0 < 4), (by decide : 1 < 4)⟩

/-- There is a thread for every program, at its start. -/
theorem workers_of_boot : w.workers[i]? = some x ↔
    i < programs.length ∧ x = ⟨.start (.ofIndex i), .due .start⟩ := by
  obtain ⟨-, plans, stats, log, rfl, rfl⟩ := of_boot h
  rw [World.initial, List.getElem?_toArray, List.getElem?_map, Option.map_eq_some_iff]
  constructor
  · rintro ⟨j, hj, rfl⟩
    obtain ⟨hlt, rfl⟩ := List.getElem?_eq_some_iff.mp hj
    rw [List.length_range] at hlt
    rw [List.getElem_range]
    exact ⟨hlt, rfl⟩
  · rintro ⟨hlt, rfl⟩
    exact ⟨i, List.getElem?_range hlt, rfl⟩

theorem size_of_boot : w.workers.size = programs.length := by
  obtain ⟨-, plans, stats, log, rfl, rfl⟩ := of_boot h
  simp [World.initial]

/-- Nobody has started yet. -/
theorem crew_of_boot : w.crew (fun _ => none) = .new w.ledger := by
  refine congrArg (Crew.mk w.ledger) (funext fun u => ?_)
  cases hx : w.worker? u with
  | none => rfl
  | some x =>
    obtain ⟨-, rfl⟩ := (workers_of_boot h).mp hx
    rfl

/-- **A machine that has been booted is in order.** -/
theorem staged_of_boot (hlen : programs.length ≤ config.capacity) :
    Staged machine (fun _ => none) w := by
  have hcrew := crew_of_boot h
  have hwired := wired_of_boot h
  have hworkers {i : Nat} {x : Worker} (hx : w.workers[i]? = some x) := (workers_of_boot h).mp hx
  have hsize := size_of_boot h
  obtain ⟨hc, plans, stats, log, rfl, rfl⟩ := of_boot h
  obtain ⟨setup, hcreate⟩ := create_simulated asked initial hc
  have hst : Crew.Stationed ⟨.fresh config.capacity initial, fun _ => .absent⟩ :=
    Crew.stationed_of_create hcreate
  refine .of_crew hst (Crew.marked_new rfl rfl) (Crew.undisturbed_new _ rfl rfl rfl rfl) hcrew
    (fun i x hx => ?_) ?_
  · obtain ⟨-, rfl⟩ := hworkers hx
    exact rfl
  · rw [hsize]
    exact (Table.capacity_ofCapacity _).symm ▸ hlen

omit h

/-! ## Two threads -/

/-- The first of two threads computes twice, and the second one once. -/
def pair : List Program := [[.compute, .compute], [.compute]]

/-- The world of `pair`, taking turns, after so many beats of each thread, one after the other. -/
def pairAfter (rounds : Nat) : Option (World Rotation Unit) :=
  match boot Rotation.scheduler {} { capacity := 2 } Policy.rotate () pair with
  | .ok (machine, w) =>
    match machine.beats (List.replicate rounds [0, 1]).flatten w with
    | .ok () w => some w
    | .error _ _ => none
  | .error _ => none

theorem of_pairAfter {rounds : Nat} {w : World Rotation Unit} (h : pairAfter rounds = some w) :
    ∃ machine w₀,
      boot Rotation.scheduler {} { capacity := 2 } Policy.rotate () pair = .ok (machine, w₀) ∧
      machine.beats (List.replicate rounds [0, 1]).flatten w₀ = .ok () w := by
  unfold pairAfter at h
  split at h
  next machine w₀ hboot =>
    split at h
    next hbeats =>
      cases h
      exact ⟨machine, w₀, hboot, hbeats⟩
    next => nomatch h
  next => nomatch h

end Simulation

end SoleRunner
