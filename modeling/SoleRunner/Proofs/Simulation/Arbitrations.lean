import SoleRunner.Proofs.Simulation.Standing

/-!
# Proofs/Simulation/Arbitrations — one arbitration an operation

Before an operation a thread may ask who runs on: it asks the arbiter by arriving, or the policy at a switch
hook.  Whoever asks sets the flag in its cursor, and the flag travels with the context from OS thread to OS
thread.  So it always says whether the operation where a program stands has been asked about, but for a
thread that is away and just about to arrive (`Stand.isArbitrated`).  Hence no operation is asked about
twice, and what is computed at a hook has been asked about once (`one_arbitration`).
-/

namespace SoleRunner.Simulation

open Machine

/-! ## What a history says of one program -/

/-- In doing so a thread asks who runs on: the arbiter, or the policy. -/
def Act.arbitrates : Act → Bool
  | .arrived | .decided _ => true
  | .computed | .syscalled | .ended => false

namespace History

variable {h : History} {s : Step} {act : Act} {me u : ThreadId} {pc : Nat} {b : Bool}

/-- How often a thread asked before operation `pc` of `u`: by an arrival, or for a decision. -/
def arbitrations (h : History) (u : ThreadId) (pc : Nat) : Nat :=
  h.countP fun e => e.2.arbitrates && e.1.owner = u && e.1.pc = pc

theorem arbitrations_push (h : History) (s : Step) (act : Act) (u : ThreadId) (pc : Nat) :
    arbitrations (h.push (s, act)) u pc =
      h.arbitrations u pc + if act.arbitrates && s.owner = u && s.pc = pc then 1 else 0 :=
  Array.countP_push ..

/-- What is no arbitration, or somebody else's, does not count. -/
theorem arbitrations_push_of_not (hs : act.arbitrates → s.owner ≠ u) :
    arbitrations (h.push (s, act)) u pc = h.arbitrations u pc := by
  rw [arbitrations_push, if_neg, Nat.add_zero]
  rw [Bool.and_eq_true, Bool.and_eq_true, decide_eq_true_eq]
  exact fun h => hs h.1.1 h.1.2

/-- **The arbitrations of `u`'s program**, when it stands at operation `pc`: at most one of each before, one
of `pc` itself if `b`, and none of a later one. -/
structure ArbitratedTo (h : History) (u : ThreadId) (pc : Nat) (b : Bool) : Prop where
  before : ∀ k < pc, h.arbitrations u k ≤ 1
  here : h.arbitrations u pc = b.toNat
  later : ∀ k, pc < k → h.arbitrations u k = 0

namespace ArbitratedTo

theorem le_one (ha : h.ArbitratedTo u pc b) (k : Nat) : h.arbitrations u k ≤ 1 := by
  rcases Nat.lt_trichotomy k pc with hk | rfl | hk
  · exact ha.before k hk
  · exact ha.here ▸ b.toNat_le
  · exact ha.later k hk ▸ Nat.zero_le 1

theorem push_of_not (ha : h.ArbitratedTo u pc b) (hs : act.arbitrates → s.owner ≠ u) :
    ArbitratedTo (h.push (s, act)) u pc b where
  before k hk := Nat.le_trans (Nat.le_of_eq (arbitrations_push_of_not hs)) (ha.before k hk)
  here := (arbitrations_push_of_not hs).trans ha.here
  later k hk := (arbitrations_push_of_not hs).trans (ha.later k hk)

/-- An operation that has not been asked about is asked about once. -/
theorem push (ha : h.ArbitratedTo u pc false) (hact : act.arbitrates) :
    ArbitratedTo (h.push (⟨me, u, pc⟩, act)) u pc true where
  before k hk := by
    rw [arbitrations_push, if_neg (by simp [Nat.ne_of_gt hk])]
    exact ha.before k hk
  here := by
    rw [arbitrations_push, ha.here, if_pos (by simp [hact])]
    rfl
  later k hk := by
    rw [arbitrations_push, if_neg (by simp [Nat.ne_of_lt hk])]
    exact ha.later k hk

/-- The next operation has not been asked about. -/
theorem advance (ha : h.ArbitratedTo u pc b) : h.ArbitratedTo u (pc + 1) false where
  before k _ := ha.le_one k
  here := ha.later _ (Nat.lt_succ_self pc)
  later k hk := ha.later k (Nat.lt_of_succ_lt hk)

end ArbitratedTo

end History

/-! ## What the flag says -/

namespace Stand

variable {p : Program} {away away' : Bool}

/-- **The operation at which a program stands has been asked about**: its flag is set, and its thread is not
just about to arrive there. -/
def isArbitrated (s : Stand) (p : Program) (away : Bool) : Bool :=
  s.hooked && !(away && p[s.pc]? = some .compute)

theorem isArbitrated_of_unhooked {s : Stand} (h : s.hooked = false) : s.isArbitrated p away = false := by
  rw [isArbitrated, h, Bool.false_and]

theorem isArbitrated_of_present {s : Stand} (h : s.hooked = true) : s.isArbitrated p false = true := by
  rw [isArbitrated, h, Bool.false_and]
  rfl

theorem isArbitrated_of_arriving {s : Stand} (h : p[s.pc]? = some .compute) :
    s.isArbitrated p true = false := by
  rw [isArbitrated, decide_eq_true h, Bool.and_true, Bool.not_true, Bool.and_false]

/-- It matters whether the thread is away only where it is about to compute. -/
theorem isArbitrated_congr {s : Stand} (h : p[s.pc]? = some .compute → away' = away) :
    s.isArbitrated p away' = s.isArbitrated p away := by
  by_cases hop : p[s.pc]? = some .compute
  · rw [h hop]
  · rw [isArbitrated, isArbitrated, decide_eq_false hop, Bool.and_false, Bool.and_false]

end Stand

variable {σ π : Type} {w v : World σ π} {machine : Machine σ π} {me u : ThreadId} {c : Cursor}
  {x x' : Worker} {i : Nat} {last : ThreadId → Option (Resume Cursor)} {stand : ThreadId → Stand}
  {is : List Nat}

namespace Machine

/-- **The flag of `u`'s program is true to the history**, where the program stands at `s` and `u` is away or
not. -/
def Arbitrates (machine : Machine σ π) (h : History) (u : ThreadId) (s : Stand) (away : Bool) : Prop :=
  h.ArbitratedTo u s.pc (s.isArbitrated (machine.program u) away)

/-! ## One beat -/

/-- **What a thread does by itself** asks at most once about where its own program stands. -/
theorem Runs.arbitrates_own {away : Bool} (h : Runs machine me w x x' v)
    (hplain : machine.role x.cursor = 0 → away = true)
    (hmark : machine.role x.cursor ≠ 0 → away = false)
    (ha : machine.Arbitrates w.history x.cursor.owner ⟨x.cursor.pc, x.cursor.hooked⟩ away) :
    machine.Arbitrates v.history x.cursor.owner ⟨x'.cursor.pc, x'.cursor.hooked⟩ away := by
  cases h with
  | @arrives c hop hrole =>
    rw [nextOp_eq] at hop
    rw [hplain hrole] at ha ⊢
    rw [Arbitrates, Stand.isArbitrated_of_arriving hop] at ha ⊢
    exact ha
  | computes => exact ha.advance.push_of_not nofun
  | syscalls => exact ha.advance.push_of_not nofun
  | decides hrole hpolicy hhook =>
    rw [Arbitrates, Stand.isArbitrated_of_unhooked (hooked_of_not_unhooked hhook)] at ha
    rw [hmark hrole, Arbitrates, Stand.isArbitrated_of_present rfl]
    exact ha.push rfl
  | _ => exact ha

/-- It asks nothing about others. -/
theorem Runs.arbitrates_other {s : Stand} {away : Bool} (h : Runs machine me w x x' v)
    (hu : u ≠ x.cursor.owner) (ha : machine.Arbitrates w.history u s away) :
    machine.Arbitrates v.history u s away := by
  cases h with
  | computes => exact ha.push_of_not nofun
  | syscalls => exact ha.push_of_not nofun
  | decides => exact ha.push_of_not fun _ ho => hu ho.symm
  | _ => exact ha

end Machine

/-- **Every program stands somewhere, and the flag there is true to the history.** -/
structure Arbitrated (machine : Machine σ π) (stand : ThreadId → Stand) (w : World σ π) : Prop where
  stands : Stands machine stand w
  arbitrates : ∀ u, machine.Arbitrates w.history u (stand u) (w.ledger.isAway u)

namespace Machine

/-- A switch hook sits before operation `pc` of `u`. -/
def HasHook (machine : Machine σ π) (u : ThreadId) (pc : Nat) : Prop :=
  ∃ plan, machine.plans[u.index]? = some plan ∧ pc ∈ plan.switchHooks

/-- A hook is due where there is one that has not run, and only for the executor. -/
theorem unhooked_eq_false_iff : machine.unhooked c = false ↔
    machine.role c ≠ 0 ∧ c.hooked = false ∧ machine.HasHook c.owner c.pc := by
  rw [unhooked, Bool.or_eq_false_iff, entryGuarded, beq_eq_false_iff_ne, Bool.not_eq_false', atHook,
    Bool.and_eq_true, Bool.not_eq_true', Option.any_eq_true]
  simp only [List.contains_iff_mem, HasHook]

end Machine

namespace Arbitrated

variable (hwired : machine.Wired) (hst : Staged machine last w) (h : Arbitrated machine stand w)
  (hx : w.workers[i]? = some x)

include hst h hx

/-- The flag of a cursor in a thread's hand is true to the history. -/
theorem of_hand {l : Option (Resume Cursor)} (hp : x.place (last (.ofIndex i)) = .outside x.cursor l) :
    machine.Arbitrates w.history x.cursor.owner ⟨x.cursor.pc, x.cursor.hooked⟩
      (w.ledger.isAway x.cursor.owner) := by
  have hat := h.stands.at_carried hst hx hp
  have hown := h.arbitrates (w.ledger.carried (.ofIndex i))
  rwa [hat.2, ← hat.1] at hown

include hwired

theorem isAway_of_unmarked {l : Option (Resume Cursor)}
    (hp : x.place (last (.ofIndex i)) = .outside x.cursor l) (hc : machine.role x.cursor = 0) :
    w.ledger.isAway x.cursor.owner = true :=
  (h.stands.at_carried hst hx hp).1 ▸ hst.isAway_of_unmarked hwired ((hst.place_eq hx).trans hp) hc

theorem isAway_of_marked {l : Option (Resume Cursor)}
    (hp : x.place (last (.ofIndex i)) = .outside x.cursor l) (hc : machine.role x.cursor ≠ 0) :
    w.ledger.isAway x.cursor.owner = false :=
  (h.stands.at_carried hst hx hp).1 ▸ hst.isAway_of_marked hwired ((hst.place_eq hx).trans hp) hc

/-! ## What is asked, and when -/

/-- **Nobody asks about an operation that has been asked about.** -/
theorem unasked {act : Act} (hrec : Records machine w x act) (hact : act.arbitrates) :
    w.history.ArbitratedTo x.cursor.owner x.cursor.pc false := by
  cases hrec with
  | @arrived c =>
    have hown := h.of_hand hst hx rfl
    have hop : machine.nextOp c = some .compute := (h.stands.ready i _ hx).1
    rw [nextOp_eq] at hop
    rw [h.isAway_of_unmarked hwired hst hx rfl (hst.fits i _ hx), Arbitrates,
      Stand.isArbitrated_of_arriving hop] at hown
    exact hown
  | decided hrole hpolicy hhook =>
    have hown := h.of_hand hst hx rfl
    rw [Arbitrates, Stand.isArbitrated_of_unhooked (hooked_of_not_unhooked hhook)] at hown
    exact hown
  | _ => nomatch hact

/-- **What is computed at a hook has been asked about once.** -/
theorem asked_of_computed (hrec : Records machine w x .computed)
    (hhas : machine.HasHook x.cursor.owner x.cursor.pc) :
    w.history.arbitrations x.cursor.owner x.cursor.pc = 1 := by
  cases hrec with
  | @computed c hrole hunhooked =>
    have hhooked : c.hooked = true := Bool.not_eq_false _ ▸ fun hnot =>
      nomatch hunhooked.symm.trans (unhooked_eq_false_iff.mpr ⟨hrole, hnot, hhas⟩)
    have hown := h.of_hand hst hx rfl
    rw [h.isAway_of_marked hwired hst hx rfl hrole, Arbitrates,
      Stand.isArbitrated_of_present hhooked] at hown
    exact hown.here

/-- Decisions are made at hooks, and about the runner. -/
theorem hook_of_decided {next : ThreadId} (hrec : Records machine w x (.decided next)) :
    machine.HasHook x.cursor.owner x.cursor.pc ∧ x.cursor.owner = w.ledger.runner ∧
      (machine.policy w.ledger.runner w.ledger.schedulerState w.policyState).1 = some next := by
  cases hrec with
  | @decided c _ s p hrole hpolicy hhook =>
    have hat := h.stands.at_carried hst hx rfl
    have howner : c.owner = w.ledger.runner :=
      hat.1.trans (hst.carried_of_marked hwired (hst.place_eq hx) hrole).2
    rw [howner] at hpolicy
    exact ⟨(unhooked_eq_false_iff.mp hhook).2.2, howner, congrArg Prod.fst hpolicy⟩

/-! ## One beat -/

/-- What a thread does by itself keeps every flag true. -/
theorem run (hr : Runs machine (.ofIndex i) w x x' v) :
    Arbitrated machine (restand stand (w.ledger.carried (.ofIndex i)) x') (v.withWorker i x') where
  stands := h.stands.run hst hx hr
  arbitrates u := by
    have hat := h.stands.at_carried hst hx (hr.places _).1
    obtain ⟨s, hv⟩ := hr.ledger_eq
    have haway : v.ledger.isAway u = w.ledger.isAway u := Ledger.isAway_congr (by rw [hv]; exact Iff.rfl)
    change machine.Arbitrates v.history u _ (v.ledger.isAway u)
    rw [haway]
    rcases eq_or_ne u (w.ledger.carried (.ofIndex i)) with rfl | hu
    · rw [(hr.at_own hat).2, ← hat.1]
      exact hr.arbitrates_own (h.isAway_of_unmarked hwired hst hx (hr.places _).1)
        (h.isAway_of_marked hwired hst hx (hr.places _).1) (h.of_hand hst hx (hr.places _).1)
    · rw [restand, Function.update_of_ne hu]
      exact hr.arbitrates_other (hat.1 ▸ hu) (h.arbitrates u)

/-- Only an arrival changes whether somebody is away who is about to compute. -/
theorem isAway_of_call (ha : Acts machine (.ofIndex i) w x x' v)
    (hcall : ¬Runs machine (.ofIndex i) w x x' v) (harrival : x.stage ≠ .due .arrival)
    (hop : (machine.program u)[(stand u).pc]? = some .compute) :
    v.ledger.isAway u = w.ledger.isAway u := by
  have hb := hst.stationed.sound.balanced
  have hset := hst.undisturbed.settled
  have hp := hst.place_eq hx
  -- Whoever has the context of `u` in hand is about to compute, too.
  have hnext {c : Cursor} (hat : At stand u c) : machine.nextOp c = some .compute := by
    rw [nextOp_eq, hat.1]
    rwa [hat.2] at hop
  cases ha with
  | start h => exact Ledger.isAway_congr (h ▸ Arbiter.startThread_outcome ..).away_iff
  | arrive => exact absurd rfl harrival
  | @depart c r m hd =>
    have ho := hd ▸ Arbiter.depart_outcome hb
    have hat := h.stands.at_carried hst hx rfl
    rw [(hst.carried_of_marked hwired hp (hst.fits i _ hx)).2] at hat
    refine Ledger.isAway_congr ((ho.away_iff hb hset).trans (or_iff_left ?_))
    rintro rfl
    exact h.stands.ready i _ hx (hnext hat)
  | switch hs =>
    have ho := hs ▸ Arbiter.switch_outcome hb
    exact Ledger.isAway_congr (ho.away_iff hst.stationed.sound hset)
  | @finish c m log hf =>
    have ho := hf ▸ Arbiter.endThread_outcome ..
    obtain ⟨hrole, hnone⟩ := hst.fits i _ hx
    have hat := h.stands.at_carried hst hx rfl
    rw [hst.carried_of_unmarked hwired hp hrole] at hat
    refine Ledger.isAway_congr ((ho.away_iff hb).trans (or_iff_left ?_))
    rintro rfl
    exact nomatch hnone.symm.trans (hnext hat)
  | wake => rfl
  | look hl => exact Ledger.isAway_congr (hl ▸ Arbiter.lookAgain_outcome hb).away_iff
  | runs hr => exact absurd hr hcall
  | rests => rfl

/-- **An arrival has been asked about**, and its thread is not away any more. -/
theorem arrive {a : Arrival Cursor} {m : Ledger Cursor σ} (hstage : x.stage = .due .arrival)
    (ha : machine.arbiter.arrive (.ofIndex i) x.cursor w.ledger = .ok a m) (u : ThreadId) :
    machine.Arbitrates (w.record (.ofIndex i) x.cursor .arrived).history u (stand u) (m.isAway u) := by
  obtain ⟨c, stage⟩ := x
  obtain rfl : stage = .due .arrival := hstage
  have hb := hst.stationed.sound.balanced
  have hat := h.stands.at_carried hst hx rfl
  rw [hst.carried_of_unmarked hwired (hst.place_eq hx) (hst.fits i _ hx)] at hat
  have haway (t : ThreadId) : m.Away t ↔ w.ledger.Away t ∧ t ≠ .ofIndex i :=
    (ha ▸ Arbiter.arrive_outcome hb).away_iff hb hst.undisturbed.settled
  rcases eq_or_ne u (.ofIndex i) with rfl | hu
  · have hback : m.isAway (.ofIndex i) = false := Ledger.isAway_of_not fun h => ((haway _).mp h).2 rfl
    have hasked : History.ArbitratedTo (w.record (.ofIndex i) c .arrived).history c.owner c.pc true :=
      (h.unasked hwired hst hx .arrived rfl).push rfl
    rw [hat.2, hback, Arbitrates, Stand.isArbitrated_of_present (h.stands.ready i _ hx).2]
    exact hat.1 ▸ hasked
  · rw [Ledger.isAway_congr ((haway u).trans (and_iff_left hu))]
    exact (h.arbitrates u).push_of_not fun _ ho => hu (ho.symm.trans hat.1)

omit hst h hx hwired in
/-- Whatever else a call does, it asks nothing. -/
theorem arbitrates_of_call {s : Stand} {away : Bool} (ha : Acts machine me w x x' v)
    (hcall : ¬Runs machine me w x x' v) (harrival : x.stage ≠ .due .arrival)
    (hu : machine.Arbitrates w.history u s away) : machine.Arbitrates v.history u s away := by
  cases ha with
  | arrive => exact absurd rfl harrival
  | finish => exact hu.push_of_not nofun
  | runs hr => exact absurd hr hcall
  | _ => exact hu

/-- So does a call of the arbiter, or the end of a wait. -/
theorem call (hleave : machine.arbiter.scheduler.LeavesContexts)
    (ha : Acts machine (.ofIndex i) w x x' v) (hcall : ¬Runs machine (.ofIndex i) w x x' v) :
    Arbitrated machine stand (v.withWorker i x') where
  stands := h.stands.call hst hx hleave ha hcall
  arbitrates u := by
    change machine.Arbitrates v.history u (stand u) (v.ledger.isAway u)
    by_cases harrival : x.stage = .due .arrival
    · cases ha with
      | arrive ha => exact h.arrive hwired hst hx rfl ha u
      | runs hr => exact absurd hr hcall
      | rests hs => simp [harrival] at hs
      | _ => nomatch harrival
    · have hkept := arbitrates_of_call ha hcall harrival (h.arbitrates u)
      rwa [Arbitrates, ← Stand.isArbitrated_congr
        (h.isAway_of_call hwired hst hx ha hcall harrival)] at hkept

/-- **A beat that succeeds keeps every flag true.** -/
theorem act (hleave : machine.arbiter.scheduler.LeavesContexts)
    (ha : Acts machine (.ofIndex i) w x x' v) : ∃ stand', Arbitrated machine stand' (v.withWorker i x') := by
  by_cases hr : Runs machine (.ofIndex i) w x x' v
  · exact ⟨_, h.run hwired hst hx hr⟩
  · exact ⟨stand, h.call hwired hst hx hleave ha hr⟩

omit hx

/-- **Nobody is asked about twice**, not even in a beat that fails. -/
theorem le_one_after (i : Nat) (u : ThreadId) (pc : Nat) :
    (World.after (machine.beat i w)).history.arbitrations u pc ≤ 1 := by
  obtain hsame | ⟨x, act, hx, hrec, hpush⟩ := records_of_beat machine i w
  · rw [hsame]
    exact (h.arbitrates u).le_one pc
  · rw [hpush]
    by_cases hact : act.arbitrates ∧ x.cursor.owner = u
    · obtain ⟨hact, rfl⟩ := hact
      exact ((h.unasked hwired hst hx hrec hact).push hact).le_one pc
    · exact ((h.arbitrates u).push_of_not fun hasks ho => hact ⟨hasks, ho⟩).le_one pc

end Arbitrated

/-! ## Runs -/

section Boot

variable {asked : CodeUnit → List Placement} {initial : Rotation} {config : Config}
  {policy : Policy Rotation π} {q : π} {programs : List Program} {machine : Machine Rotation π}
  {w₀ w : World Rotation π}

/-- Before the first beat nothing has been asked. -/
theorem arbitrated_of_boot
    (h : boot (Rotation.placing asked) initial config policy q programs = .ok (machine, w₀)) :
    Arbitrated machine (fun _ => {}) w₀ where
  stands := stands_of_boot h
  arbitrates u := by
    obtain ⟨-, plans, stats, log, rfl, rfl⟩ := of_boot h
    exact ⟨fun _ _ => Nat.zero_le 1, rfl, fun _ _ => rfl⟩

/-- After any row of beats that succeed, every flag is true. -/
theorem arbitrated_of_beats
    (h : boot (Rotation.placing asked) initial config policy q programs = .ok (machine, w₀))
    (hlen : programs.length ≤ config.capacity) (hbeats : machine.beats is w₀ = .ok () w) :
    (∃ last, Staged machine last w) ∧ ∃ stand, Arbitrated machine stand w := by
  have hwired := wired_of_boot h
  have hleave : machine.arbiter.scheduler.LeavesContexts := by
    obtain ⟨-, plans, stats, log, rfl, rfl⟩ := of_boot h
    exact fun _ _ _ => rfl
  refine (staged_of_boot h hlen).of_beats (P := fun w => ∃ stand, Arbitrated machine stand w) hwired ?_
    ⟨_, arbitrated_of_boot h⟩ hbeats
  rintro last w i x x' v hst ⟨stand, h⟩ hx ha
  exact h.act hwired hst hx hleave ha

/-- **One arbitration an operation.**  The rotation schedules programs with valid switch points and any
policy.  Each program has a plan that serves what is asked for in it.  After any row of beats that succeed,
and after one more that may fail: before no operation of any program has a thread asked twice who runs on,
the arbiter and the policy taken together.  Whatever the next beat is: the policy decides only at a hook of
a plan, and is told the runner; and what is computed at a hook has been asked about exactly once. -/
theorem one_arbitration (hc : config.problem? = none) (hlen : programs.length ≤ config.capacity)
    (hvalid : ValidFrom asked 0 programs) (initial : Rotation) (policy : Policy Rotation π) (q : π) :
    ∃ (machine : Machine Rotation π) (w₀ : World Rotation π),
      boot (Rotation.placing asked) initial config policy q programs = .ok (machine, w₀) ∧
      (∀ (i : Nat) (p : Program), programs[i]? = some p →
        ∃ plan : Plan, machine.plans[i]? = some plan ∧ plan.Serves (p.unit i) (asked (p.unit i))) ∧
      ∀ is w, machine.beats is w₀ = .ok () w →
        (∀ u pc, w.history.arbitrations u pc ≤ 1) ∧
        ∀ i, (∀ u pc, (World.after (machine.beat i w)).history.arbitrations u pc ≤ 1) ∧
          ((World.after (machine.beat i w)).history = w.history ∨
          ∃ s act, (World.after (machine.beat i w)).history = w.history.push (s, act) ∧
            (∀ next, act = .decided next →
              (∃ plan, machine.plans[s.owner.index]? = some plan ∧ s.pc ∈ plan.switchHooks) ∧
              s.owner = w.ledger.runner ∧
              (policy w.ledger.runner w.ledger.schedulerState w.policyState).1 = some next) ∧
            (act = .computed →
              (∃ plan, machine.plans[s.owner.index]? = some plan ∧ s.pc ∈ plan.switchHooks) →
              w.history.arbitrations s.owner s.pc = 1)) := by
  obtain ⟨-, -, plans, stats, log, hboot⟩ | ⟨hno, -⟩ :=
    boot_outcome asked initial config policy q programs
  · refine ⟨_, _, hboot, fun i p => serves_of_boot hboot, fun is w hbeats => ?_⟩
    have hwired := wired_of_boot hboot
    obtain ⟨⟨last, hst⟩, stand, h⟩ := arbitrated_of_beats hboot hlen hbeats
    refine ⟨fun u pc => (h.arbitrates u).le_one pc, fun i => ⟨h.le_one_after hwired hst i, ?_⟩⟩
    refine (records_of_beat _ i w).imp_right fun ⟨x, act, hx, hrec, hpush⟩ => ⟨_, act, hpush, ?_, ?_⟩
    · rintro next rfl
      exact h.hook_of_decided hwired hst hx hrec
    · rintro rfl
      exact h.asked_of_computed hwired hst hx hrec
  · exact absurd ⟨hc, hvalid⟩ hno

/-- Of two threads, the second one was asked about at its hook when it arrived, and the first one at its
second operation, when the policy decided; and nobody was asked about twice. -/
theorem one_arbitration_pair :
    ∃ (machine : Machine Rotation Unit) (w₀ w : World Rotation Unit),
      boot Rotation.scheduler {} { capacity := 2 } Policy.rotate () pair = .ok (machine, w₀) ∧
      machine.beats (List.replicate 13 [0, 1]).flatten w₀ = .ok () w ∧
      (∃ plan : Plan, machine.plans[1]? = some plan ∧ 0 ∈ plan.switchHooks) ∧
      w.history.arbitrations ⟨1⟩ 0 = 1 ∧ w.history.arbitrations ⟨0⟩ 1 = 1 ∧
      ∀ u pc, w.history.arbitrations u pc ≤ 1 := by
  have hvalid : ValidFrom Rotation.placements 0 pair :=
    ⟨Rotation.placements_valid _, Rotation.placements_valid _, trivial⟩
  have hafter : (pairAfter 13).any fun w =>
      w.history.arbitrations ⟨1⟩ 0 = 1 ∧ w.history.arbitrations ⟨0⟩ 1 = 1 := by decide +kernel
  obtain ⟨w, hw, hchecked⟩ := (Option.any_eq_true _ _).mp hafter
  obtain ⟨hsecond, hfirst⟩ := of_decide_eq_true hchecked
  obtain ⟨machine, w₀, hboot, hbeats⟩ := of_pairAfter hw
  obtain ⟨machine', w₀', hboot', hserves, hruns⟩ := one_arbitration
    (rfl : ({ capacity := 2 } : Config).problem? = none) (by decide) hvalid {} Policy.rotate ()
  cases hboot.symm.trans hboot'
  obtain ⟨plan, hplan, hserved⟩ := hserves 1 [.compute] rfl
  exact ⟨machine, w₀, w, hboot, hbeats, ⟨plan, hplan, (hserved.mem_hooks 0).mpr (by decide)⟩, hsecond,
    hfirst, (hruns _ w hbeats).1⟩

end Boot

end SoleRunner.Simulation
