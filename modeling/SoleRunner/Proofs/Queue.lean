import Mathlib.Data.List.Nodup
import Mathlib.Logic.Equiv.Basic
import SoleRunner.Proofs.Undisturbed
import SoleRunner.Scheduler.Rotation

/-!
# Proofs/Queue — the ready queue of the rotation and the thread table

The rotation's queue lists the threads inside the program, each once, but for the one that is to run next
(`Ledger.Lists`).  That one is the runner, or the thread that a policy has drawn from the queue for a
switch that is still to come.  Joining, replacing the runner, one turn of the rotation, switching and the
last exit all keep it so.  As long as nobody is blocked, the one that is to run next is in the program if
anybody is (`Ledger.Queued`), and the front of the queue is always idle.
-/

namespace SoleRunner

namespace Table.Balanced

variable {C : Type} {t : Table C} {runner u : ThreadId} {n : Nat}

/-- Without captured threads there is nobody in the program. -/
theorem not_inside (h : t.Balanced 0 runner) (hb : t.state? u ≠ some .blocked) : ¬ t.Inside u := by
  intro hu
  have hidle := h.idle_of_inside hu (h.runner_eq_nobody rfl ▸ hu.elim fun s hs => h.ne_nobody hs.1) hb
  exact absurd (h.captured_pos hidle rfl) (Nat.lt_irrefl 0)

/-- A runner who is the only captured thread is the only one in the program. -/
theorem inside_iff_of_one (h : t.Balanced 1 runner) (hr : runner ≠ .nobody)
    (hb : t.state? u ≠ some .blocked) : t.Inside u ↔ u = runner := by
  refine ⟨fun hu => Classical.byContradiction fun hne => ?_, ?_⟩
  · exact absurd (h.one_lt_captured (h.idle_of_inside hu hne hb) hr) (Nat.lt_irrefl 1)
  · rintro rfl
    exact h.runner_inside hr

/-- Nobody is blocked: those in the program beside the runner are the idle ones. -/
theorem idle_iff (h : t.Balanced n runner) (hb : t.state? u ≠ some .blocked) :
    t.state? u = some .idle ↔ t.Inside u ∧ u ≠ runner :=
  ⟨fun hu => ⟨inside_of_state hu (by decide), h.ne_runner_of_idle hu⟩,
    fun hu => h.idle_of_inside hu.1 hu.2 hb⟩

end Table.Balanced

namespace Ledger

variable {C : Type} {m m' : Ledger C Rotation} {tid next u : ThreadId} {c : C} {r : Rotation}
  {log : Array Log.Entry} {asked : CodeUnit → List Placement}

/-- **The queue lists the threads in the program, each once, but for `next`.** -/
structure Lists (m : Ledger C Rotation) (next : ThreadId) : Prop where
  nodup : m.schedulerState.ready.Nodup
  mem_iff : ∀ u, u ∈ m.schedulerState.ready ↔ m.table.Inside u ∧ u ≠ next

namespace Lists

/-- Nothing else matters than the queue and who is in the program. -/
theorem congr (h : m.Lists next) (hs : m'.schedulerState = m.schedulerState)
    (hin : ∀ u, m'.table.Inside u ↔ m.table.Inside u) : m'.Lists next where
  nodup := hs ▸ h.nodup
  mem_iff u := by rw [hs, hin, h.mem_iff]

theorem withSaved (h : m.Lists next) (tid : ThreadId) (c : C) : (m.withSaved tid c).Lists next :=
  h.congr rfl fun _ => inside_withSaved

/-- The front of the queue, and the rest of it. -/
theorem mem_rest_iff (h : m.Lists m.runner) {rest : List ThreadId}
    (hcons : m.schedulerState.ready = next :: rest) (u : ThreadId) :
    u ∈ rest ↔ (m.table.Inside u ∧ u ≠ m.runner) ∧ u ≠ next := by
  have hnodup := h.nodup
  rw [hcons, List.nodup_cons] at hnodup
  rw [← h.mem_iff, hcons, List.mem_cons]
  constructor
  · intro hu
    refine ⟨.inr hu, ?_⟩
    rintro rfl
    exact hnodup.1 hu
  · rintro ⟨rfl | hu, hne⟩
    · exact absurd rfl hne
    · exact hu

/-- The first one to join runs, and whoever is in the program besides is in the queue. -/
theorem entered_first (h : m.Lists .nobody) (asked : CodeUnit → List Placement) (h0 : m.captured = 0)
    (hn : m.table.state? .nobody = none) (hs : m.table.Outside tid) :
    (m.entered (Rotation.placing asked) tid c).Lists tid := by
  have hstate : (m.entered (Rotation.placing asked) tid c).schedulerState = m.schedulerState := by
    change m.schedulerState.join tid (m.captured == 0) = _
    rw [h0]
    rfl
  refine ⟨hstate ▸ h.nodup, fun u => ?_⟩
  rw [hstate, h.mem_iff, inside_entered hs]
  constructor
  · rintro ⟨hu, -⟩
    refine ⟨.inl hu, ?_⟩
    rintro rfl
    exact hs.not_inside hu
  · rintro ⟨hu | rfl, hne⟩
    · refine ⟨hu, ?_⟩
      rintro rfl
      obtain ⟨st, hst, -⟩ := hu
      nomatch hn.symm.trans hst
    · exact absurd rfl hne

/-- A later one joins at the back. -/
theorem entered_later (h : m.Lists next) (asked : CodeUnit → List Placement) (h0 : m.captured ≠ 0)
    (hs : m.table.Outside tid) (hne : tid ≠ next) :
    (m.entered (Rotation.placing asked) tid c).Lists next := by
  have hready : (m.entered (Rotation.placing asked) tid c).schedulerState.ready =
      m.schedulerState.ready ++ [tid] := by
    change (m.schedulerState.join tid (m.captured == 0)).ready = _
    rw [beq_false_of_ne h0]
    rfl
  refine ⟨?_, fun u => ?_⟩
  · rw [hready, List.nodup_append]
    refine ⟨h.nodup, List.nodup_singleton tid, fun u hu v hv => ?_⟩
    rintro rfl
    rw [List.mem_singleton] at hv
    exact hs.not_inside (hv ▸ ((h.mem_iff u).mp hu).1)
  · rw [hready, List.mem_append, List.mem_singleton, h.mem_iff, inside_entered hs]
    constructor
    · rintro (⟨hu, hun⟩ | rfl)
      · exact ⟨.inl hu, hun⟩
      · exact ⟨.inr rfl, hne⟩
    · rintro ⟨hu | rfl, hun⟩
      · exact .inl ⟨hu, hun⟩
      · exact .inr rfl

/-- The front of the queue runs in place of the runner. -/
theorem replaced (h : m.Lists m.runner) (hb : m.table.Balanced m.captured m.runner)
    (hr : m.runner ≠ .nobody) (hpop : m.schedulerState.pop = (next, r))
    (hidle : m.table.state? next = some .idle) : (m.replaced next c r).Lists next := by
  have hcons : m.schedulerState.ready = next :: r.ready := by
    unfold Rotation.pop at hpop
    split at hpop
    · cases hpop
      exact absurd rfl (hb.ne_nobody hidle)
    next hcons =>
      cases hpop
      exact hcons
  refine ⟨?_, fun u => ?_⟩
  · have hnodup := h.nodup
    rw [hcons] at hnodup
    exact hnodup.of_cons
  · rw [inside_replaced (c := c) (s := r) hb hr hidle]
    exact h.mem_rest_iff hcons u

/-- One turn of the rotation: its answer is to run next, and the runner has taken its place. -/
theorem rotated (h : m.Lists m.runner) (hrun : m.table.Inside m.runner) :
    ({ m with schedulerState := (m.schedulerState.rotate m.runner).2 } : Ledger C Rotation).Lists
      (m.schedulerState.rotate m.runner).1 := by
  unfold Rotation.rotate
  split
  next => exact h
  next first rest hcons =>
    have hfirst := (h.mem_iff first).mp (hcons ▸ List.mem_cons_self)
    have hrest := h.mem_rest_iff hcons
    have hnodup := h.nodup
    rw [hcons, List.nodup_cons] at hnodup
    refine ⟨?_, fun u => ?_⟩
    · refine List.nodup_append.mpr ⟨hnodup.2, List.nodup_singleton _, fun u hu v hv => ?_⟩
      rintro rfl
      exact ((hrest u).mp hu).1.2 (List.mem_singleton.mp hv)
    · change u ∈ rest ++ [m.runner] ↔ _
      rw [List.mem_append, List.mem_singleton, hrest]
      constructor
      · rintro (⟨⟨hu, -⟩, hne⟩ | rfl)
        · exact ⟨hu, hne⟩
        · exact ⟨hrun, hfirst.2.symm⟩
      · rintro ⟨hu, hne⟩
        by_cases hur : u = m.runner
        · exact .inr hur
        · exact .inl ⟨⟨hu, hur⟩, hne⟩

/-- The thread that was drawn for a switch runs. -/
theorem switched (h : m.Lists next) (hb : m.table.Balanced m.captured m.runner)
    (hr : m.runner ≠ .nobody) (hidle : m.table.state? next = some .idle) :
    (m.switched next c log).Lists next :=
  h.congr rfl fun _ => inside_switched hb hr hidle

/-- After the last exit the queue lists whoever is still in the program. -/
theorem vacated (h : m.Lists m.runner) (hb : m.table.Balanced m.captured m.runner)
    (hs : m.table.state? tid = some .running) : (m.vacated tid).Lists .nobody := by
  refine ⟨h.nodup, fun u => (h.mem_iff u).trans ?_⟩
  rw [inside_vacated hs, ← hb.runner_eq_of_running hs]
  refine (and_iff_left_of_imp fun hu => ?_).symm
  rintro rfl
  obtain ⟨st, hst, -⟩ := hu.1
  nomatch hb.nobody_unknown.symm.trans hst

end Lists

/-- **The queue lists the threads in the program, each once, but for `next`**, who is to run. -/
structure Queued (m : Ledger C Rotation) (next : ThreadId) : Prop where
  nodup : m.schedulerState.ready.Nodup
  mem_iff : ∀ u, u ∈ m.schedulerState.ready ↔ m.table.Inside u ∧ u ≠ next
  /-- If there is anybody in the program, `next` is. -/
  next_inside : ∀ u, m.table.Inside u → m.table.Inside next

theorem Queued.lists (h : m.Queued next) : m.Lists next := ⟨h.nodup, h.mem_iff⟩

theorem Lists.queued (h : m.Lists next) (hin : ∀ u, m.table.Inside u → m.table.Inside next) :
    m.Queued next := ⟨h.nodup, h.mem_iff, hin⟩

namespace Queued

theorem congr (h : m.Queued next) (hs : m'.schedulerState = m.schedulerState)
    (hin : ∀ u, m'.table.Inside u ↔ m.table.Inside u) : m'.Queued next :=
  (h.lists.congr hs hin).queued fun u hu => (hin next).mpr (h.next_inside u ((hin u).mp hu))

theorem withSaved (h : m.Queued next) (tid : ThreadId) (c : C) : (m.withSaved tid c).Queued next :=
  h.congr rfl fun _ => inside_withSaved

/-! ## The queue and the idle threads -/

/-- **If the runner is to run next, the queue lists the idle threads.** -/
theorem mem_iff_idle (h : m.Queued m.runner) (hb : m.table.Balanced m.captured m.runner)
    (hun : ∀ u, m.table.state? u ≠ some .blocked) (u : ThreadId) :
    u ∈ m.schedulerState.ready ↔ m.table.state? u = some .idle := by
  rw [h.mem_iff, hb.idle_iff (hun u)]

/-- **If another thread is to run next, the queue lists the runner in its place.** -/
theorem mem_iff_swap (h : m.Queued next) (hb : m.table.Balanced m.captured m.runner)
    (hun : ∀ u, m.table.state? u ≠ some .blocked) (hr : m.runner ≠ .nobody) (u : ThreadId) :
    u ∈ m.schedulerState.ready ↔ m.table.state? (Equiv.swap m.runner next u) = some .idle := by
  have hrun := hb.runner_inside hr
  rw [h.mem_iff, hb.idle_iff (hun _)]
  rcases eq_or_ne u m.runner with rfl | hur
  · rw [Equiv.swap_apply_left]
    exact ⟨fun hu => ⟨h.next_inside _ hrun, hu.2.symm⟩, fun hu => ⟨hrun, hu.2.symm⟩⟩
  rcases eq_or_ne u next with rfl | hun'
  · rw [Equiv.swap_apply_right]
    exact iff_of_false (fun hu => hu.2 rfl) (fun hu => hu.2 rfl)
  · rw [Equiv.swap_apply_of_ne_of_ne hur hun']
    exact and_congr_right fun _ => iff_of_true hun' hur

/-- **The rotation chooses an idle thread**, if there is one. -/
theorem chooses (h : m.Queued m.runner) (hb : m.table.Balanced m.captured m.runner)
    (hun : ∀ u, m.table.state? u ≠ some .blocked) (hidle : ∃ u, m.table.state? u = some .idle) :
    m.Chooses (Rotation.placing asked) := by
  obtain ⟨u, hu⟩ := hidle
  intro c
  change m.table.state? m.schedulerState.pop.1 = some .idle
  rw [← h.mem_iff_idle hb hun] at hu ⊢
  unfold Rotation.pop
  split
  next hnil =>
    rw [hnil] at hu
    nomatch hu
  next first rest hcons =>
    rw [hcons]
    exact List.mem_cons_self

/-! ## What keeps the queue in order -/

/-- A newcomer joins at the back, or runs if it is the first. -/
theorem entered (h : m.Queued next) (asked : CodeUnit → List Placement)
    (hb : m.table.Balanced m.captured m.runner)
    (hun : ∀ u, m.table.state? u ≠ some .blocked) (hs : m.table.Outside tid) :
    (m.entered (Rotation.placing asked) tid c).Queued (if m.captured = 0 then tid else next) := by
  have hin (u : ThreadId) := inside_entered (p := Rotation.placing (C := C) asked) (c := c) (u := u) hs
  by_cases h0 : m.captured = 0
  · have hnone (u : ThreadId) : ¬ m.table.Inside u := (h0 ▸ hb).not_inside (hun u)
    have hlists : m.Lists .nobody :=
      ⟨h.nodup, fun u => (h.mem_iff u).trans (iff_of_false (fun hu => hnone u hu.1) fun hu => hnone u hu.1)⟩
    rw [if_pos h0]
    exact (hlists.entered_first asked h0 hb.nobody_unknown hs).queued fun _ _ => (hin tid).mpr (.inr rfl)
  · have hnext : m.table.Inside next := by
      obtain ⟨u, s, hu, hc⟩ := Table.exists_captured hb.capacity_le
        (hb.captured_eq ▸ Nat.pos_of_ne_zero h0)
      refine h.next_inside u (Table.inside_of_state hu ?_)
      rintro rfl
      nomatch hc
    have hne : tid ≠ next := by
      rintro rfl
      exact hs.not_inside hnext
    rw [if_neg h0]
    exact (h.lists.entered_later asked h0 hs hne).queued fun _ _ => (hin next).mpr (.inl hnext)

/-- The front of the queue runs in place of the runner. -/
theorem replaced (h : m.Queued m.runner) (hb : m.table.Balanced m.captured m.runner)
    (hr : m.runner ≠ .nobody) (hpop : m.schedulerState.pop = (next, r))
    (hidle : m.table.state? next = some .idle) : (m.replaced next c r).Queued next := by
  have hne := hb.ne_runner_of_idle hidle
  refine (h.lists.replaced hb hr hpop hidle).queued fun _ _ => ?_
  exact (inside_replaced hb hr hidle).mpr ⟨Table.inside_of_state hidle (by decide), hne⟩

/-- One turn of the rotation: its answer is to run next, and the runner has taken its place. -/
theorem rotated (h : m.Queued m.runner) (hb : m.table.Balanced m.captured m.runner)
    (hr : m.runner ≠ .nobody) :
    ({ m with schedulerState := (m.schedulerState.rotate m.runner).2 } : Ledger C Rotation).Queued
      (m.schedulerState.rotate m.runner).1 := by
  have hrun := hb.runner_inside hr
  refine (h.lists.rotated hrun).queued fun _ _ => ?_
  unfold Rotation.rotate
  split
  next => exact hrun
  next first rest hcons => exact ((h.mem_iff first).mp (hcons ▸ List.mem_cons_self)).1

/-- The thread that was drawn for a switch runs. -/
theorem switched (h : m.Queued next) (hb : m.table.Balanced m.captured m.runner)
    (hr : m.runner ≠ .nobody) (hidle : m.table.state? next = some .idle) :
    (m.switched next c log).Queued next :=
  h.congr rfl fun _ => inside_switched hb hr hidle

/-- After the last exit the queue is empty. -/
theorem vacated (h : m.Queued m.runner) (hb : m.table.Balanced m.captured m.runner)
    (hun : ∀ u, m.table.state? u ≠ some .blocked) (hs : m.table.state? tid = some .running)
    (hn : m.captured = 1) : (m.vacated tid).Queued .nobody := by
  have hr := hb.runner_ne_nobody_of_running hs
  have hin (u : ThreadId) : m.table.Inside u ↔ u = m.runner := (hn ▸ hb).inside_iff_of_one hr (hun u)
  refine (h.lists.vacated hb hs).queued fun u hu => ?_
  rw [inside_vacated hs, hin, ← hb.runner_eq_of_running hs] at hu
  exact absurd hu.1 hu.2

end Queued

end Ledger

/-- What the rotation answers is the front of its queue. -/
theorem Rotation.pop_of_choose {C : Type} {asked : CodeUnit → List Placement} {tid next : ThreadId}
    {c d : C} {r s : Rotation} (h : (Rotation.placing asked).choose tid c r = (next, d, s)) :
    r.pop = (next, s) := by
  injection h with hfst hsnd
  injection hsnd with _ hsnd
  exact Prod.ext hfst hsnd

namespace Ledger

variable {C : Type} {m m' : Ledger C Rotation} {tid : ThreadId}

/-- The roles stay, and so does the thread that is to run next. -/
structure KeepsTurn (m m' : Ledger C Rotation) : Prop where
  executor_eq : m'.executor = m.executor
  runner_eq : m'.runner = m.runner
  queued : ∀ next, m.Queued next → m'.Queued next

/-- **What a handler of `tid` makes of the queue**: either nobody's turn changes, or the runner is to run
next, and `tid` is the executor or has given up the role. -/
def Requeues (tid : ThreadId) (m m' : Ledger C Rotation) : Prop :=
  m.KeepsTurn m' ∨ (m'.executor = tid ∨ m'.executor = .nobody) ∧ m'.Queued m'.runner

theorem KeepsTurn.of_eq (he : m'.executor = m.executor) (hr : m'.runner = m.runner)
    (hs : m'.schedulerState = m.schedulerState) (hin : ∀ u, m'.table.Inside u ↔ m.table.Inside u) :
    m.KeepsTurn m' := ⟨he, hr, fun _ hq => hq.congr hs hin⟩

theorem Requeues.logged (h : m.Requeues tid m') (log : Array Log.Entry) :
    m.Requeues tid (m'.logged log) :=
  h.imp (fun hk => ⟨hk.executor_eq, hk.runner_eq, fun next hq => (hk.queued next hq).congr rfl fun _ => .rfl⟩)
    fun hr => ⟨hr.1, hr.2.congr rfl fun _ => .rfl⟩

end Ledger

namespace Arbiter

variable {C : Type} {arb : Arbiter C Rotation} {m m' : Ledger C Rotation} {tid : ThreadId}
  {c : C} {asked : CodeUnit → List Placement} (hp : arb.scheduler = Rotation.placing asked)
  (hb : m.table.Balanced m.captured m.runner)

/-! ## Every handler -/

section

variable [Context C] {a : Arrival C} {r : Resume C}

include hp in
theorem Starts.requeues {c' : C} (ho : Starts arb tid c m (.ok c' m')) : m.Requeues tid m' := by
  cases ho with
  | started =>
    rw [hp]
    exact .inl (.of_eq rfl rfl rfl fun _ => .rfl)

include hp hb

/-- A newcomer that takes the role runs the runner's code, or that of the thread that comes after it. -/
theorem Settles.requeues (h : m.owesUncapture = true ∨ m.executor = .nobody → m.Queued m.runner)
    (ho : Settles arb tid m (.ok a m')) :
    m' = m ∧ m.executor ≠ .nobody ∨ m'.executor = tid ∧ m'.Queued m'.runner := by
  cases ho with
  | @paid d d' y next s l howes _ _ hr _ ha hnext _ =>
    have hreplaced := (h (.inl howes)).replaced (c := d') hb hr (Rotation.pop_of_choose (hp ▸ ha)) hnext
    exact .inr ⟨rfl, hreplaced.congr rfl fun u => Ledger.inside_withSaved⟩
  | took howes he => exact .inr ⟨rfl, (h (.inr he)).congr rfl fun u => Ledger.inside_withSaved⟩
  | waits howes he => exact .inl ⟨rfl, he⟩

theorem Arrives.requeues (hin : m.executor ≠ .nobody → m.table.Inside m.executor)
    (hun : ∀ u, m.table.state? u ≠ some .blocked)
    (h : m.owesUncapture = true ∨ m.executor = .nobody ∨ m.executor = tid → m.Queued m.runner)
    (ho : Arrives arb tid c m (.ok a m')) : m.Requeues tid m' := by
  cases ho with
  | returned hs he hn =>
    exact .inr ⟨.inl he, (h (.inr (.inr he))).congr rfl fun u => Ledger.inside_withSaved⟩
  | joined hs hset =>
    rw [hp] at hset
    have henter {next : ThreadId} (hq : m.Queued next) := hq.entered asked (c := c) hb hun hs
    have hset := hset.requeues hp (Ledger.entered_balanced hb _ c hs) fun hturn =>
      henter (h (hturn.imp_right .inl))
    obtain ⟨rfl, hne⟩ | ⟨he, hq⟩ := hset
    · have h0 : m.captured ≠ 0 := fun h0 => (h0 ▸ hb).not_inside (hun _) (hin hne)
      refine .inl ⟨rfl, Ledger.entered_runner_of_later h0, fun next hq => ?_⟩
      have hq := henter hq
      rwa [if_neg h0] at hq
    · exact .inr ⟨.inl he, hq⟩

theorem Departs.requeues (h : m.Queued m.runner) (ho : Departs arb tid c m (.ok r m')) :
    m.Requeues tid m' := by
  cases ho with
  | @shipped d y next s log he hr _ _ ha hnext =>
    have hreplaced := h.replaced (c := d) hb hr (Rotation.pop_of_choose (hp ▸ ha)) hnext
    exact .inr ⟨.inl he, hreplaced.congr rfl fun u => Ledger.inside_withSaved⟩
  | @handedOver d next s log he hr htid _ ha hnext =>
    have hreplaced := h.replaced (c := d) hb (hr ▸ htid) (Rotation.pop_of_choose (hp ▸ ha)) hnext
    exact .inr ⟨.inr rfl, hreplaced.congr rfl fun u => Ledger.inside_withSaved⟩
  | owed he => exact .inr ⟨.inl he, h.congr rfl fun u => Ledger.inside_withSaved⟩

omit hp

theorem Switches.requeues (h : m.Queued (arb.decision c)) (ho : Switches arb tid c m (.ok r m')) :
    m'.executor = tid ∧ m'.Queued m'.runner := by
  cases ho with
  | switched hcheck hr =>
    obtain ⟨-, he, -, hidle⟩ := of_checkSwitch hcheck
    exact ⟨he, (h.switched hb hr hidle).withSaved _ _⟩

omit hb in
theorem Looks.requeues (h : m.executor = .nobody → m.Queued m.runner)
    (ho : Looks arb tid m (.ok a m')) : m.Requeues tid m' := by
  cases ho with
  | released => exact .inl (.of_eq rfl rfl rfl fun _ => Ledger.inside_withSaved)
  | took hs hne he =>
    exact .inr ⟨.inl rfl, (h he).congr rfl fun u => Ledger.inside_withSaved⟩
  | waits => exact .inl (.of_eq rfl rfl rfl fun _ => .rfl)

end

include hp hb in
theorem Finishes.requeues (hun : ∀ u, m.table.state? u ≠ some .blocked)
    (h : m.executor = tid → m.Queued m.runner) (ho : Finishes arb tid m (.ok () m')) :
    m.Requeues tid m' := by
  cases ho with
  | outside =>
    rw [hp]
    exact .inl (.of_eq rfl rfl rfl fun _ => .rfl)
  | last hrun hn he =>
    rw [hp]
    exact .inr ⟨.inr rfl, ((h he).vacated hb hun hrun hn).congr rfl fun _ => .rfl⟩

end Arbiter

end SoleRunner
