import SoleRunner.Proofs.OtherSlots
import SoleRunner.Proofs.AnyRun

/-!
# Proofs/Switching — exactly when a switch goes through, and exactly what it does

The choice register holds 64 bits, and a switch goes through if and only if they are the index of an idle
thread and the caller and its context are the executor's.  So a value that is too large for a thread is
never taken for a smaller one.  Otherwise the first of six tests that fails decides the fault
(`switchTests`), and nothing changes.  On success two slots change, the roles and the arm as `SwitchedTo`
lists them.
-/

namespace SoleRunner

/-! ## The first test that fails -/

namespace Fault

variable {e e' : Fault} {b : Bool} {tests : List (Bool × Fault)}

/-- The fault of the first test that fails, if one does. -/
def first? (tests : List (Bool × Fault)) : Option Fault := (tests.find? fun test => !test.1).map Prod.snd

@[simp] theorem first?_nil : first? [] = none := rfl

@[simp] theorem first?_cons_true : first? ((true, e) :: tests) = first? tests := rfl

@[simp] theorem first?_cons_false : first? ((false, e) :: tests) = some e := rfl

/-- A refusal comes before whatever is checked next. -/
theorem first?_cons_iff {p : Prop} [Decidable p] {x : Except Fault Unit} (hb : b = false ↔ p)
    (hx : ¬ p → (x = .error e ↔ first? tests = some e)) :
    (if p then .error e' else x) = .error e ↔ first? ((b, e') :: tests) = some e := by
  by_cases hp : p
  · rw [if_pos hp, hb.mpr hp, first?_cons_false, Except.error.injEq, Option.some.injEq]
  · have htrue : b = true := Bool.not_eq_false b ▸ fun hfalse => hp (hb.mp hfalse)
    rw [if_neg hp, htrue, first?_cons_true]
    exact hx hp

end Fault

namespace Arbiter

open Critical

section

variable {C : Type} {t : Table C} {v : UInt64} {e : Fault}

/-- The thread that a register value names is in the table if and only if the value is below its
capacity. -/
theorem contains_ofReg_iff (hcap : t.capacity ≤ ThreadId.nobody.index) :
    t.contains (.ofReg v) = true ↔ v.toNat < t.capacity := by
  rw [Table.contains, Bool.and_eq_true, decide_eq_true_eq, decide_eq_true_eq]
  by_cases hv : v.toNat < ThreadId.nobody.index
  · have hindex := ThreadId.index_ofReg hv
    have hne : ThreadId.ofReg v ≠ .nobody := by
      intro he
      rw [he] at hindex
      omega
    rw [hindex]
    exact and_iff_right hne
  · have hle := Nat.not_lt.mp hv
    rw [ThreadId.ofReg_of_le hle]
    refine iff_of_false (fun h => h.1 rfl) ?_
    omega

/-- The state of that thread is that of the slot. -/
theorem state?_ofReg (hcap : t.capacity ≤ ThreadId.nobody.index) (hv : v.toNat < t.capacity) :
    t.state? (.ofReg v) = t.states[v.toNat]? := by
  rw [← Table.states_getElem?, ThreadId.index_ofReg (Nat.lt_of_lt_of_le hv hcap)]

/-- The two last tests of a switch, on a register value. -/
def choiceTests (t : Table C) (v : UInt64) : List (Bool × Fault) :=
  [(v.toNat < t.capacity, .violation (.outOfRange (.ofReg v) t.capacity)),
    (t.states[v.toNat]? == some .idle,
      .violation (.notIdle (.ofReg v) (t.states[v.toNat]?.getD .uncaptured)))]

theorem checkChoice_ofReg_iff (hcap : t.capacity ≤ ThreadId.nobody.index) :
    checkChoice t (.ofReg v) = .error e ↔ Fault.first? (choiceTests t v) = some e := by
  unfold checkChoice choiceTests
  refine Fault.first?_cons_iff ?_ fun hin => ?_
  · rw [Bool.not_eq_true', decide_eq_false_iff_not, ← Bool.not_eq_true, contains_ofReg_iff hcap]
  · have hv : v.toNat < t.capacity := by
      rw [Bool.not_eq_true', Bool.not_eq_false, contains_ofReg_iff hcap] at hin
      exact hin
    have hindex := ThreadId.index_ofReg (Nat.lt_of_lt_of_le hv hcap)
    obtain ⟨s, hs⟩ := Table.exists_state?_of_lt (hindex.symm ▸ hv)
    rw [Table.state_of_some hs, ← state?_ofReg hcap hv, hs]
    cases s with
    | idle => exact iff_of_false nofun nofun
    | uncaptured | blocked | running =>
      exact ⟨fun h => congrArg some (Except.error.inj h), fun h => congrArg _ (Option.some.inj h)⟩

end

variable {C σ : Type} [Context C] {arb : Arbiter C σ} {m m' : Ledger C σ} {tid next : ThreadId} {c : C}
  {e : Fault} {r : Resume C}

/-- **The tests of a switch**, in their order, each with the fault that it fails with. -/
def switchTests (arb : Arbiter C σ) (m : Ledger C σ) (tid : ThreadId) (c : C) : List (Bool × Fault) :=
  let v := Context.reg c arb.choiceReg
  (Context.reg c arb.roleReg == 1, .violation (.notExecutor tid m.executor)) ::
  (!(m.armed && v.toNat == m.runner.index), .violation (.keptWhileArmed (.ofReg v))) ::
  (m.executor == tid, .broken .switchesAsExecutor) ::
  (v.toNat != m.runner.index, .broken .switchChangesThread) ::
  choiceTests m.table v

/-- **The first test that fails decides the fault.** -/
theorem checkSwitch_error_iff (hb : m.table.Balanced m.captured m.runner) (hr : m.runner ≠ .nobody) :
    arb.checkSwitch m tid c = .error e ↔ Fault.first? (arb.switchTests m tid c) = some e := by
  have hkept : arb.decision c = m.runner ↔ (Context.reg c arb.choiceReg).toNat = m.runner.index :=
    ThreadId.ofReg_eq_iff hr
  unfold checkSwitch switchTests
  refine Fault.first?_cons_iff ?_ fun _ => ?_
  · simp
  refine Fault.first?_cons_iff ?_ fun _ => ?_
  · simp [hkept]
  refine Fault.first?_cons_iff ?_ fun _ => ?_
  · simp
  refine Fault.first?_cons_iff ?_ fun _ => ?_
  · simp [hkept]
  exact checkChoice_ofReg_iff hb.capacity_le

/-! ## A switch that goes through -/

/-- **What a switch to `next` makes of the ledger**: the runner is left with context `c`, marked as not the
executor's, `next` runs, and an armed block is spent. -/
structure SwitchedTo (arb : Arbiter C σ) (m : Ledger C σ) (next : ThreadId) (c : C) (m' : Ledger C σ) :
    Prop where
  runner_eq : m'.runner = next
  runnerHint_eq : m'.runnerHint = next
  next_running : m'.table.state? next = some .running
  left_state : m'.table.state? m.runner = some (if m.armed then .blocked else .idle)
  left_saved : m'.table.saved? m.runner = some
    (Context.setReg (Context.setReg c arb.roleReg 0) arb.choiceReg 0xFFFFFFFFFFFFFFFF)
  captured_eq : m'.captured + (if m.armed then 1 else 0) = m.captured
  armed_eq : m'.armed = false
  armedHint_eq : m'.armedHint = false
  executor_eq : m'.executor = m.executor
  owes_eq : m'.owesUncapture = m.owesUncapture
  permits_eq : m'.permits = m.permits
  scheduler_eq : m'.schedulerState = m.schedulerState
  others : ∀ u, u ≠ next → u ≠ m.runner → m.Spares u m'

theorem switchedTo_switched (h : m.Sound) (hr : m.runner ≠ .nobody) (hne : next ≠ m.runner)
    (hidle : m.table.state? next = some .idle) (arb : Arbiter C σ) (c : C) (log : Array Log.Entry) :
    arb.SwitchedTo m next c (m.switched next (arb.stampPlain c) log) where
  runner_eq := rfl
  runnerHint_eq := rfl
  next_running := Ledger.state?_switched_next hne hidle
  left_state := Ledger.state?_switched_runner hne (h.balanced.runner_running hr)
  left_saved := stampPlain_eq arb c ▸ Ledger.saved?_switched_runner (h.balanced.runner_running hr)
  captured_eq := by
    have hpos := h.balanced.captured_pos_of_runner hr
    change (if m.armed then m.captured - 1 else m.captured) + _ = m.captured
    split <;> omega
  armed_eq := rfl
  armedHint_eq := by
    change (if m.armed then false else m.armedHint) = false
    rw [h.armedHint_eq]
    cases m.armed <;> rfl
  executor_eq := rfl
  owes_eq := rfl
  permits_eq := rfl
  scheduler_eq := rfl
  others _ hn hr := Ledger.spares_switched hn hr

/-- Saving the context of the thread that runs now does not matter. -/
theorem SwitchedTo.withSaved (h : arb.SwitchedTo m next c m') (hne : next ≠ m.runner) (d : C) :
    arb.SwitchedTo m next c (m'.withSaved next d) where
  runner_eq := h.runner_eq
  runnerHint_eq := h.runnerHint_eq
  next_running := Table.state?_save.trans h.next_running
  left_state := Table.state?_save.trans h.left_state
  left_saved := (Ledger.saved?_withSaved_of_ne hne.symm).trans h.left_saved
  captured_eq := h.captured_eq
  armed_eq := h.armed_eq
  armedHint_eq := h.armedHint_eq
  executor_eq := h.executor_eq
  owes_eq := h.owes_eq
  permits_eq := h.permits_eq
  scheduler_eq := h.scheduler_eq
  others u hn hr := (h.others u hn hr).withSaved hn

/-- The executor goes on with the thread that it switched to. -/
theorem Switches.switchedTo (h : m.Sound) (ho : Switches arb tid c m (.ok r m')) :
    ∃ x, m.table.saved? (arb.decision c) = some x ∧ arb.SwitchedTo m (arb.decision c) c m' ∧
      r = ⟨arb.decision c, .executor, arb.stampExecutor (arb.decision c) x⟩ ∧
      m'.table.saved? (arb.decision c) = some r.context := by
  cases ho with
  | @switched x log hcheck hr hx =>
    obtain ⟨-, -, hne, hidle⟩ := of_checkSwitch hcheck
    refine ⟨x, hx, (switchedTo_switched h hr hne hidle arb c log).withSaved hne _, rfl, ?_⟩
    exact Table.saved?_save_self (Ledger.state?_switched_next hne hidle)

/-- A switch that is refused changes nothing, and says which test failed first. -/
theorem switch_error_iff (hb : m.table.Balanced m.captured m.runner) (hr : m.runner ≠ .nobody) :
    arb.switch tid c m = .error e m' ↔ m' = m ∧ Fault.first? (arb.switchTests m tid c) = some e := by
  have ho : Switches arb tid c m (arb.switch tid c m) := switch_outcome hb
  rw [← checkSwitch_error_iff hb hr]
  generalize arb.switch tid c m = k at ho
  cases ho with
  | refused hbad =>
    rw [hbad, EStateM.Result.error.injEq, Except.error.injEq, eq_comm (a := m), and_comm]
  | leaderless _ hnobody => exact absurd hnobody hr
  | switched hgood =>
    rw [hgood]
    exact iff_of_false nofun fun h => nomatch h.2

/-- **A switch, exactly.**  Whatever has happened to a new arbiter, and whoever calls with whatever context
while a thread runs: the switch goes through if and only if the context is the executor's, the caller is
the executor, and the 64 bits of the choice register are the index of an idle slot.  Then that thread runs
(`SwitchedTo`), and the executor goes on with its saved context, in which 1 and its index are written to
the two registers.  Otherwise nothing changes, and the fault is that of the first of the `switchTests` that
fails. -/
theorem switch_iff_idle_slot {scheduler : Scheduler C σ} {initial : σ} {config : Config}
    {setup setup' : Setup C σ} {es : List (Event C σ)} {n : Ledger C σ}
    (h : create scheduler initial config setup = .ok (arb, m) setup') (hn : arb.follow m es = n)
    (hr : n.runner ≠ .nobody) (tid : ThreadId) (c : C) :
    ((∃ r m', arb.switch tid c n = .ok r m') ↔
      Context.reg c arb.roleReg = 1 ∧ n.executor = tid ∧
        (Context.reg c arb.choiceReg).toNat < n.table.capacity ∧
        n.table.states[(Context.reg c arb.choiceReg).toNat]? = some .idle) ∧
    (∀ r m', arb.switch tid c n = .ok r m' →
      ∃ next x, next.index = (Context.reg c arb.choiceReg).toNat ∧ n.table.saved? next = some x ∧
        arb.SwitchedTo n next c m' ∧
        r = ⟨next, .executor,
          Context.setReg (Context.setReg x arb.roleReg 1) arb.choiceReg next.raw.toUInt64⟩ ∧
        m'.table.saved? next = some r.context) ∧
    ∀ e m', arb.switch tid c n = .error e m' ↔
      m' = n ∧ Fault.first? (arb.switchTests n tid c) = some e := by
  have hs := hn ▸ arb.sound_foldl es (sound_of_create h)
  have hb := hs.balanced
  have hcap := hb.capacity_le
  have hslot : n.table.state? (arb.decision c) = some .idle ↔
      (Context.reg c arb.choiceReg).toNat < n.table.capacity ∧
        n.table.states[(Context.reg c arb.choiceReg).toNat]? = some .idle := by
    constructor
    · intro hidle
      have hin := Table.index_lt_of_state? hidle
      have hv : (Context.reg c arb.choiceReg).toNat = (arb.decision c).index :=
        (ThreadId.ofReg_eq_iff (hb.ne_nobody hidle)).mp rfl
      rw [hv, Table.states_getElem?]
      exact ⟨hin, hidle⟩
    · rintro ⟨hv, hidle⟩
      exact (state?_ofReg hcap hv).trans hidle
  refine ⟨?_, fun r m' hok => ?_, fun e m' => switch_error_iff hb hr⟩
  · rw [switch_ok_iff hb, ← hslot]
    constructor
    · rintro ⟨hrole, he, -, -, hidle⟩
      exact ⟨hrole, he, hidle⟩
    · rintro ⟨hrole, he, hidle⟩
      exact ⟨hrole, he, hr, hb.ne_runner_of_idle hidle, hidle⟩
  · have ho : Switches arb tid c n (.ok r m') := hok ▸ switch_outcome hb
    obtain ⟨x, hx, hto, hanswer, hsaved⟩ := ho.switchedTo hs
    have hne : arb.decision c ≠ .nobody := by
      obtain ⟨s, hstate⟩ := Table.state?_of_saved? hx
      exact hb.ne_nobody hstate
    rw [stampExecutor_eq arb hne] at hanswer
    exact ⟨arb.decision c, x, ((ThreadId.ofReg_eq_iff hne).mp rfl).symm, hx, hto, hanswer, hsaved⟩

/-- Three threads have arrived and a block is armed: 2 in the choice register makes the first one blocked
and the third one run, and 2 ^ 32 + 2 names nobody. -/
theorem switch_iff_idle_slot_rotation :
    let n := threeSlots.follow (.fresh 3 {}) [.call (.arrive ⟨0⟩ (.start ⟨0⟩)),
      .call (.arrive ⟨1⟩ (.start ⟨1⟩)), .call (.arrive ⟨2⟩ (.start ⟨2⟩)), .call .armBlock]
    let asked (v : UInt64) :=
      Context.setReg (threeSlots.stampExecutor ⟨0⟩ (.start ⟨0⟩)) threeSlots.choiceReg v
    (∃ r m', threeSlots.switch ⟨0⟩ (asked 2) n = .ok r m' ∧ r.tid = ⟨2⟩ ∧
      threeSlots.SwitchedTo n ⟨2⟩ (asked 2) m' ∧ m'.table.states = [.blocked, .idle, .running]) ∧
    threeSlots.switch ⟨0⟩ (asked 0x100000002) n = .error (.violation (.outOfRange .nobody 3)) n := by
  intro n asked
  obtain ⟨setup, h⟩ := create_threeSlots
  have hexact := switch_iff_idle_slot (n := n) h rfl (by decide) ⟨0⟩
  obtain ⟨r, m', hok⟩ := (hexact (asked 2)).1.mpr ⟨by decide, rfl, by decide, rfl⟩
  obtain ⟨next, x, hindex, -, hto, rfl, -⟩ := (hexact (asked 2)).2.1 r m' hok
  obtain rfl : next = ⟨2⟩ := ThreadId.index_inj.mp hindex
  refine ⟨⟨_, m', hok, rfl, hto, ?_⟩, ((hexact (asked 0x100000002)).2.2 _ _).mpr ⟨rfl, by decide⟩⟩
  have hleft : left (threeSlots.switch ⟨0⟩ (asked 2) n) = m' := by
    rw [hok]
    rfl
  rw [← hleft]
  rfl

end Arbiter

end SoleRunner
