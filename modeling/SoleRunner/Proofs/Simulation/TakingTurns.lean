import SoleRunner.Proofs.Simulation.Rotating
import SoleRunner.Proofs.Simulation.Turns

/-!
# Proofs/Simulation/TakingTurns — a simulation that takes turns neither fails nor gets stuck

With the rotation as scheduler and as policy, a simulation of good settings and valid switch points can
be booted, no call of it ever fails, and its queue always mirrors the thread table
(`rotation_never_fails`).  Also if the policy never switches, somebody can go on until all threads have
ended (`ended_or_goes_on`).
-/

namespace SoleRunner.Simulation

open Machine

variable {π : Type} {asked : CodeUnit → List Placement} {config : Config}
  {policy : Policy Rotation π} {p : π} {programs : List Program} {machine : Machine Rotation π}
  {w₀ w : World Rotation π} {last : ThreadId → Option (Resume Cursor)} {is : List Nat} {i : Nat}
  {x : Worker} {u : ThreadId}

/-! ## The world before the first beat -/

theorem rotates_of_boot
    (h : boot (Rotation.placing asked) {} config policy p programs = .ok (machine, w₀))
    (hpolicy : policy.TakesTurns) : machine.Rotates := by
  have hwired := wired_of_boot h
  obtain ⟨-, plans, stats, log, rfl, rfl⟩ := of_boot h
  exact ⟨hwired, ⟨asked, rfl⟩, hpolicy⟩

/-- Before the first beat the queue is empty, as the program is. -/
theorem rotating_of_boot
    (h : boot (Rotation.placing asked) {} config policy p programs = .ok (machine, w₀))
    (hlen : programs.length ≤ config.capacity) : Rotating machine (fun _ => none) w₀ where
  staged := staged_of_boot h hlen
  accounted := accounted_of_boot h
  survive i x hx := by
    obtain ⟨-, rfl⟩ := (workers_of_boot h).mp hx
    exact nofun
  inTurn := by
    have hst := staged_of_boot h hlen
    obtain ⟨-, plans, stats, log, rfl, rfl⟩ := of_boot h
    refine ⟨.nobody, (UpNext.of_vacant hst.size_le_nobody rfl).mpr rfl, ?_⟩
    exact ⟨List.nodup_nil,
      fun u => iff_of_false List.not_mem_nil fun hu => Table.not_inside_ofCapacity hu.1,
      fun u hu => absurd hu Table.not_inside_ofCapacity⟩

/-! ## The queue and the table -/

/-- **The queue mirrors the table**: it lists the idle threads, each once; and while an executor has
decided to switch and has not done so, the runner in place of the one to switch to. -/
structure Machine.Mirrors (machine : Machine Rotation π) (w : World Rotation π) : Prop where
  nodup : w.ledger.schedulerState.ready.Nodup
  mem_iff : (∀ (i : Nat) (x : Worker), w.workers[i]? = some x → machine.pending? x = none) →
    ∀ u, u ∈ w.ledger.schedulerState.ready ↔ w.ledger.table.state? u = some .idle
  mem_iff_swap : ∀ (i : Nat) (x : Worker) (next : ThreadId), w.workers[i]? = some x →
    machine.pending? x = some next → ∀ u, u ∈ w.ledger.schedulerState.ready ↔
      w.ledger.table.state? (Equiv.swap w.ledger.runner next u) = some .idle

namespace Rotating

theorem mirrors (hrot : machine.Rotates) (h : Rotating machine last w) : machine.Mirrors w := by
  have hst := h.staged
  have hb := hst.stationed.sound.balanced
  have hun := hst.undisturbed.unblocked
  obtain ⟨next, hnext, hq⟩ := h.inTurn
  refine ⟨hq.nodup, fun hplain => ?_, fun i x next' hx hpending => ?_⟩
  · have hrunner : next = w.ledger.runner := by
      by_cases he : w.ledger.executor = .nobody
      · exact (UpNext.of_vacant hst.size_le_nobody he).mp hnext
      · obtain ⟨i, x, hx, hworker, -⟩ := hst.exists_executor he
        exact (UpNext.of_plain hworker (hplain i x hx)).mp hnext
    exact (hrunner ▸ hq).mem_iff_idle hb hun
  · obtain ⟨-, hr, -, hq⟩ := h.inTurn.queued_of_pending hst hrot.wired hx hpending
    exact hq.mem_iff_swap hb hun hr

/-- Once all threads have ended, nobody is in the program. -/
theorem not_inside_of_ended (h : Rotating machine last w)
    (hended : ∀ (i : Nat) (x : Worker), w.workers[i]? = some x → x.stage = .ended) :
    ¬ w.ledger.table.Inside u := by
  have hst := h.staged
  have hplace {v : ThreadId} : (w.crew last).place v = .absent := by
    cases hx : w.worker? v with
    | none => exact World.place_crew_of_none hx
    | some x => exact (World.place_crew hx).trans (Worker.place_of_ended (hended _ x hx) _)
  intro hu
  by_cases he : u = w.ledger.executor
  · subst he
    obtain ⟨s, hs, -⟩ := hu
    obtain ⟨c, l, hp⟩ := hst.stationed.executor_outside (hst.stationed.sound.balanced.ne_nobody hs)
    cases hplace.symm.trans hp
  · obtain ⟨b, hb⟩ := hst.stationed.waits u hu he
    cases hplace.symm.trans hb

end Rotating

/-- **Nothing is left of a run**: everybody is outside the program, nobody runs, nothing is owed and the
queue is empty. -/
structure AtRest (m : Ledger Cursor Rotation) : Prop where
  outside : ∀ u, u.index < m.table.capacity → m.table.Outside u
  captured_eq : m.captured = 0
  runner_eq : m.runner = .nobody
  executor_eq : m.executor = .nobody
  owes_eq : m.owesUncapture = false
  ready_eq : m.schedulerState.ready = []

theorem Rotating.atRest (h : Rotating machine last w)
    (hended : ∀ (i : Nat) (x : Worker), w.workers[i]? = some x → x.stage = .ended) : AtRest w.ledger := by
  have hst := h.staged
  have hs := hst.stationed.sound
  have hnone (u : ThreadId) : ¬ w.ledger.table.Inside u := h.not_inside_of_ended hended
  have hcaptured : w.ledger.captured = 0 := by
    refine Nat.eq_zero_of_not_pos fun hpos => ?_
    obtain ⟨u, s, hu, hc⟩ := Table.exists_captured hs.balanced.capacity_le (hs.balanced.captured_eq ▸ hpos)
    refine hnone u (Table.inside_of_state hu ?_)
    rintro rfl
    nomatch hc
  have hexecutor : w.ledger.executor = .nobody :=
    Classical.byContradiction fun hne => hnone _ (hs.executor_inside hne)
  refine ⟨fun u hu => ?_, hcaptured, hs.balanced.runner_eq_nobody hcaptured, hexecutor, ?_, ?_⟩
  · obtain ⟨s, hstate⟩ := Table.exists_state?_of_lt hu
    rcases eq_or_ne s .uncaptured with rfl | hin
    · exact hstate
    · exact absurd (Table.inside_of_state hstate hin) (hnone u)
  · refine Bool.eq_false_iff.mpr fun howes => ?_
    exact (hst.undisturbed.settled howes).executor_ne_nobody hs hexecutor
  · obtain ⟨next, -, hq⟩ := h.inTurn
    exact List.eq_nil_iff_forall_not_mem.mpr fun u hu => hnone u ((hq.mem_iff u).mp hu).1

/-! ## Runs -/

/-- **A simulation that takes turns never fails.**  With good settings, not more programs than threads,
and valid switch points, it can be booted, and whatever beats come in whatever order: they all succeed,
the queue mirrors the table, and nothing is left once all threads have ended.  So no run of turns ends
in a fault. -/
theorem rotation_never_fails (hc : config.problem? = none) (hlen : programs.length ≤ config.capacity)
    (hvalid : ValidFrom asked 0 programs) (p : π) :
    ∃ machine w₀,
      boot (Rotation.placing asked) {} config Policy.rotate p programs = .ok (machine, w₀) ∧
      (∀ is, ∃ w, machine.beats is w₀ = .ok () w ∧ machine.Mirrors w ∧
        ((∀ (i : Nat) (x : Worker), w.workers[i]? = some x → x.stage = .ended) → AtRest w.ledger)) ∧
      ∀ n picks, (machine.run n picks w₀).fault = none := by
  obtain ⟨-, -, plans, stats, log, hboot⟩ | ⟨hno, -⟩ :=
    boot_outcome asked {} config Policy.rotate p programs
  · have hrot := rotates_of_boot hboot Policy.takesTurns_rotate
    have hbeats := (rotating_of_boot hboot hlen).beats_ok hrot
    refine ⟨_, _, hboot, fun is => ?_, fun n picks => ?_⟩
    · obtain ⟨w, last, hw, hrotating⟩ := hbeats is
      exact ⟨w, hw, hrotating.mirrors hrot, hrotating.atRest⟩
    · exact (beats_of_run (fun is => (hbeats is).imp fun w hw => hw.elim fun _ hw => hw.1) n picks).1
  · exact absurd ⟨hc, hvalid⟩ hno

/-- After sixteen beats each, both threads have ended, and nothing is left. -/
theorem rotation_never_fails_pair :
    ∃ (machine : Machine Rotation Unit) (w₀ w : World Rotation Unit),
      boot Rotation.scheduler {} { capacity := 2 } Policy.rotate () pair = .ok (machine, w₀) ∧
      machine.beats (List.replicate 16 [0, 1]).flatten w₀ = .ok () w ∧
      AtRest w.ledger ∧ (machine.run 20 [1, 0, 1] w₀).fault = none := by
  have hafter : (pairAfter 16).any fun w => w.workers.all fun x => x.stage = .ended := by decide +kernel
  obtain ⟨w, hw, hchecked⟩ := (Option.any_eq_true _ _).mp hafter
  have hended (i : Nat) (x : Worker) (hx : w.workers[i]? = some x) : x.stage = .ended :=
    of_decide_eq_true (Array.all_eq_true'.mp hchecked x (Array.mem_of_getElem? hx))
  obtain ⟨machine, w₀, hboot, hbeats⟩ := of_pairAfter hw
  have hvalid : ValidFrom Rotation.placements 0 pair :=
    ⟨Rotation.placements_valid _, Rotation.placements_valid _, trivial⟩
  obtain ⟨machine', w₀', hboot', hall, hrun⟩ :=
    rotation_never_fails (rfl : ({ capacity := 2 } : Config).problem? = none) (by decide) hvalid ()
  cases hboot.symm.trans hboot'
  obtain ⟨w', hbeats', -, hrest⟩ := hall (List.replicate 16 [0, 1]).flatten
  cases hbeats.symm.trans hbeats'
  exact ⟨machine, w₀, w, hboot, hbeats, hrest hended, hrun 20 [1, 0, 1]⟩

/-- A thread that is called is awake, or will be once it has its turn. -/
theorem Staged.exists_called (hcall : (w.crew last).Called u) :
    ∃ x, w.workers[u.index]? = some x ∧ x.stage ≠ .ended ∧
      (x.stage = .asleep → w.ledger.hasPermit (.ofIndex u.index)) := by
  obtain ⟨b, hb, hpermit⟩ := hcall
  cases hx : w.worker? u with
  | none => cases (World.place_crew_of_none hx).symm.trans hb
  | some x =>
    have hplace := (World.place_crew hx).symm.trans hb
    refine ⟨x, hx, fun hended => ?_, fun hasleep => ?_⟩
    · cases (Worker.place_of_ended hended _).symm.trans hplace
    · cases (Worker.place_of_asleep hasleep _).symm.trans hplace
      rw [ThreadId.ofIndex_index]
      exact hpermit.resolve_left Bool.false_ne_true

/-- **Unless all threads have ended, somebody is ready**: not asleep without a permit.  It is the executor;
or the runner, who is called to take the role; or somebody who is not in the program. -/
theorem Staged.ended_or_ready (hst : Staged machine last w) :
    (∀ (i : Nat) (x : Worker), w.workers[i]? = some x → x.stage = .ended) ∨
    ∃ i x, w.workers[i]? = some x ∧ x.stage ≠ .ended ∧
      (x.stage = .asleep → w.ledger.hasPermit (.ofIndex i)) := by
  refine Classical.or_iff_not_imp_left.mpr fun hleft => ?_
  have hw := hst.stationed
  by_cases he : w.ledger.executor = .nobody
  · obtain ⟨i, x, hx, hne⟩ : ∃ (i : Nat) (x : Worker), w.workers[i]? = some x ∧ x.stage ≠ .ended := by
      simpa using hleft
    by_cases hasleep : x.stage = .asleep
    · have hplace : (w.crew last).place (.ofIndex i) = .inside false :=
        (hst.place_eq hx).trans (Worker.place_of_asleep hasleep _)
      obtain ⟨s, hs⟩ := Table.exists_state?_of_lt (hst.index_lt hx)
      rcases eq_or_ne s .uncaptured with rfl | hin
      · exact ⟨_, Staged.exists_called (hw.released_called _ _ hplace hs)⟩
      · have hinside := Table.inside_of_state hs hin
        have hrunner : w.ledger.runner ≠ .nobody := fun hr =>
          have hidle := hw.sound.balanced.idle_of_inside hinside (hr ▸ hw.ne_nobody_of_inside hplace)
            (hst.undisturbed.unblocked _)
          hst.undisturbed.led ⟨Nat.ne_of_gt (hw.sound.balanced.captured_pos hidle rfl), hr⟩
        exact ⟨_, Staged.exists_called (hw.runner_called he hrunner)⟩
    · exact ⟨i, x, hx, hne, fun h => absurd h hasleep⟩
  · obtain ⟨i, x, hx, hworker, -⟩ := hst.exists_executor he
    obtain ⟨c, l, hp⟩ := hw.executor_outside he
    have hp := (World.place_crew hworker).symm.trans hp
    refine ⟨i, x, hx, fun hended => ?_, fun hasleep => ?_⟩
    · cases (Worker.place_of_ended hended _).symm.trans hp
    · cases (Worker.place_of_asleep hasleep _).symm.trans hp

/-- **A simulation that takes turns does not get stuck**, nor does one that never switches: after any row
of beats, either all threads have ended, or one of them is neither gone nor asleep without a permit, and
its next beat succeeds. -/
theorem ended_or_goes_on (hpolicy : policy = Policy.rotate ∨ policy = Policy.stay)
    (h : boot (Rotation.placing asked) {} config policy p programs = .ok (machine, w₀))
    (hlen : programs.length ≤ config.capacity) (hbeats : machine.beats is w₀ = .ok () w) :
    (∀ (i : Nat) (x : Worker), w.workers[i]? = some x → x.stage = .ended) ∨
    ∃ i x w', w.workers[i]? = some x ∧ x.stage ≠ .ended ∧ x.stage ≠ .crashed ∧
      (x.stage = .asleep → w.ledger.hasPermit (.ofIndex i)) ∧ machine.beat i w = .ok () w' := by
  have hturns : policy.TakesTurns := by
    obtain rfl | rfl := hpolicy
    · exact Policy.takesTurns_rotate
    · exact Policy.takesTurns_stay
  have hrot := rotates_of_boot h hturns
  obtain ⟨v, last, hv, hrotating⟩ := (rotating_of_boot h hlen).beats_ok hrot is
  cases hv.symm.trans hbeats
  refine hrotating.staged.ended_or_ready.imp_right ?_
  rintro ⟨i, x, hx, hne, hready⟩
  obtain ⟨w', l, hbeat, -⟩ := hrotating.beat_ok hrot i
  exact ⟨i, x, w', hx, hne, hrotating.survive i x hx, hready, hbeat⟩

/-- After six beats each, the second thread sleeps without a permit, and the first one can go on. -/
theorem ended_or_goes_on_pair :
    ∃ (machine : Machine Rotation Unit) (w₀ w : World Rotation Unit),
      boot Rotation.scheduler {} { capacity := 2 } Policy.rotate () pair = .ok (machine, w₀) ∧
      machine.beats (List.replicate 6 [0, 1]).flatten w₀ = .ok () w ∧
      w.workers[1]?.map Worker.stage = some .asleep ∧ w.ledger.hasPermit ⟨1⟩ = false ∧
      ∃ i x w', w.workers[i]? = some x ∧ x.stage ≠ .ended ∧ x.stage ≠ .crashed ∧
        (x.stage = .asleep → w.ledger.hasPermit (.ofIndex i)) ∧ machine.beat i w = .ok () w' := by
  have hafter : (pairAfter 6).any fun w => w.workers[1]?.map Worker.stage = some .asleep ∧
      w.ledger.hasPermit ⟨1⟩ = false := by decide +kernel
  obtain ⟨w, hw, hchecked⟩ := (Option.any_eq_true _ _).mp hafter
  obtain ⟨hasleep, hpermit⟩ := of_decide_eq_true hchecked
  obtain ⟨machine, w₀, hboot, hbeats⟩ := of_pairAfter hw
  obtain hended | hgoes := ended_or_goes_on (.inl rfl) hboot (by decide) hbeats
  · obtain ⟨x, hx, hstage⟩ := Option.map_eq_some_iff.mp hasleep
    nomatch (hended 1 x hx).symm.trans hstage
  · exact ⟨machine, w₀, w, hboot, hbeats, hasleep, hpermit, hgoes⟩

end SoleRunner.Simulation
