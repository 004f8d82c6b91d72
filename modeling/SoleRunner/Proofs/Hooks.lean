import SoleRunner.Proofs.AnyRun

/-!
# Proofs/Hooks — a switch hook passes over exactly the switches that would change nothing

Before it asks for a switch, a substrate looks at two published copies without the lock
(`Ledger.hookCalls`).  The switch itself reads the decision back out of the choice register and compares
it with the runner under the lock.  On every ledger that an arbiter can come to, both say the same
(`hook_agrees_with_switch`): a hook passes over a decision if and only if the switch would be refused as
no change, and whatever else a switch answers, the hook answers too.
-/

namespace SoleRunner

namespace Arbiter

open Critical

variable {C σ : Type} [Context C] {arb : Arbiter C σ} {m m' n : Ledger C σ} {tid next : ThreadId}
  {c : C} {e : Fault} {r : Resume C}

/-- **A switch hook**: the substrate looks whether a decision calls for a switch, and makes the call if
so. -/
def hook (arb : Arbiter C σ) (tid next : ThreadId) (context : C) : Critical C σ (Option (Resume C)) := do
  if (← get).hookCalls next then return some (← arb.switch tid context) else return none

/-! ## What a switch makes of the executor's decision -/

/-- A decision comes back out of the register it was written to. -/
theorem decision_of_toReg (hchoice : Context.reg c arb.choiceReg = next.toReg) :
    arb.decision c = next := by
  rw [decision, hchoice, ThreadId.ofReg_toReg]

section

variable (hrole : Context.reg c arb.roleReg = 1) (he : m.executor = tid)

include hrole he

/-- The executor's own switch is checked for its decision only. -/
theorem checkSwitch_of_executor (hnext : arb.decision c = next) : arb.checkSwitch m tid c =
    if m.armed ∧ next = m.runner then .error (.violation (.keptWhileArmed next))
    else if next = m.runner then .error (.broken .switchChangesThread)
    else checkChoice m.table next := by
  unfold checkSwitch
  dsimp only
  rw [if_neg (not_not_intro hrole), if_neg (not_not_intro he), hnext]

/-- It may not keep the runner. -/
theorem switch_of_runner (hnext : arb.decision c = m.runner) : arb.switch tid c m =
    .error (if m.armed then .violation (.keptWhileArmed m.runner) else .broken .switchChangesThread) m := by
  have hcheck := checkSwitch_of_executor hrole he hnext
  rw [switch, bind_of_ok (get_apply m), hcheck]
  by_cases ha : m.armed = true
  · rw [if_pos ⟨ha, rfl⟩, if_pos ha, ofExcept_error, bind_of_error (throw_apply _ m)]
  · rw [if_neg fun h => ha h.1, if_pos rfl, if_neg ha, ofExcept_error, bind_of_error (throw_apply _ m)]

/-- With another thread as its decision, it is not refused for keeping the runner. -/
theorem switch_of_other (hb : m.table.Balanced m.captured m.runner) (hnext : arb.decision c = next)
    (hne : next ≠ m.runner) (h : arb.switch tid c m = .error e m') :
    e ≠ .broken .switchChangesThread ∧ e ≠ .violation (.keptWhileArmed next) := by
  have hcheck := checkSwitch_of_executor hrole he hnext
  rw [if_neg fun h => hne h.2, if_neg hne] at hcheck
  have ho : Switches arb tid c m (.error e m') := h ▸ switch_outcome hb
  cases ho with
  | refused hbad =>
    obtain rfl | ⟨st, rfl⟩ := of_checkChoice_error (hcheck.symm.trans hbad)
    · exact ⟨nofun, nofun⟩
    · exact ⟨nofun, nofun⟩
  | leaderless => exact ⟨nofun, nofun⟩

end

/-! ## A hook -/

theorem hook_of_calls (hcall : m.hookCalls next = true) :
    arb.hook tid next c m = (some <$> arb.switch tid c) m := by
  rw [hook, bind_of_ok (get_apply m), hcall, if_pos rfl, map_eq_pure_bind]

theorem hook_of_passes (hpass : m.hookCalls next = false) : arb.hook tid next c m = .ok none m := by
  rw [hook, bind_of_ok (get_apply m), hpass, if_neg Bool.false_ne_true, pure_apply]

theorem hook_answers_iff : arb.hook tid next c m = .ok (some r) m' ↔
    m.hookCalls next = true ∧ arb.switch tid c m = .ok r m' := by
  cases hcall : m.hookCalls next with
  | true =>
    rw [hook_of_calls hcall, map_apply]
    cases arb.switch tid c m <;> simp
  | false =>
    rw [hook_of_passes hcall]
    exact iff_of_false nofun nofun

theorem hook_fails_iff : arb.hook tid next c m = .error e m' ↔
    m.hookCalls next = true ∧ arb.switch tid c m = .error e m' := by
  cases hcall : m.hookCalls next with
  | true =>
    rw [hook_of_calls hcall, map_apply]
    cases arb.switch tid c m <;> simp
  | false =>
    rw [hook_of_passes hcall]
    exact iff_of_false nofun nofun

theorem hook_passes_iff : arb.hook tid next c m = .ok none m' ↔
    m.hookCalls next = false ∧ m' = m := by
  cases hcall : m.hookCalls next with
  | true =>
    rw [hook_of_calls hcall, map_apply]
    cases arb.switch tid c m <;> simp
  | false =>
    rw [hook_of_passes hcall, EStateM.Result.ok.injEq, eq_comm (a := m), eq_self, eq_self]

/-- **A hook passes over exactly the switches that would be refused as no change.** -/
theorem passes_iff_switch_refused (hs : m.Sound) (hrole : Context.reg c arb.roleReg = 1)
    (he : m.executor = tid) (hnext : arb.decision c = next) :
    m.hookCalls next = false ↔ ∃ m', arb.switch tid c m = .error (.broken .switchChangesThread) m' := by
  rw [hs.hookCalls_eq_false_iff]
  constructor
  · rintro ⟨rfl, ha⟩
    have hswitch := switch_of_runner hrole he hnext
    rw [ha] at hswitch
    exact ⟨m, hswitch⟩
  · rintro ⟨m', hswitch⟩
    by_cases hne : next = m.runner
    · subst hne
      rw [switch_of_runner hrole he hnext] at hswitch
      refine ⟨rfl, Bool.eq_false_iff.mpr fun ha => ?_⟩
      rw [if_pos ha] at hswitch
      nomatch hswitch
    · exact absurd rfl (switch_of_other hrole he hs.balanced hnext hne hswitch).1

/-- A switch is refused for keeping the runner exactly where a block is armed and the decision keeps it. -/
theorem switch_kept_iff (hs : m.Sound) (hrole : Context.reg c arb.roleReg = 1)
    (he : m.executor = tid) (hnext : arb.decision c = next) :
    arb.switch tid c m = .error (.violation (.keptWhileArmed next)) m' ↔
      m' = m ∧ next = m.runner ∧ m.armed = true := by
  constructor
  · intro hswitch
    by_cases hne : next = m.runner
    · subst hne
      rw [switch_of_runner hrole he hnext, EStateM.Result.error.injEq] at hswitch
      obtain ⟨hfault, rfl⟩ := hswitch
      refine ⟨rfl, rfl, Classical.byContradiction fun ha => ?_⟩
      rw [if_neg ha] at hfault
      nomatch hfault
    · exact absurd rfl (switch_of_other hrole he hs.balanced hnext hne hswitch).2
  · rintro ⟨rfl, rfl, ha⟩
    rw [switch_of_runner hrole he hnext, if_pos ha]

/-- **A hook and the switch agree.**  Whatever has happened to a new arbiter: when the executor comes to a
hook with its mark and any decision in its choice register, nobody's name included, the hook passes over
the decision if and only if the switch would be refused because it changes nothing; that is, if the
decision keeps the runner and no block is armed.  So a hook answers whatever a switch would answer, fails
wherever it would fail otherwise, and reports a runner that is kept while a block is armed. -/
theorem hook_agrees_with_switch {scheduler : Scheduler C σ} {initial : σ} {config : Config}
    {setup setup' : Setup C σ} {es : List (Event C σ)}
    (h : create scheduler initial config setup = .ok (arb, m) setup') (hn : arb.follow m es = n)
    (he : n.executor = tid) (hrole : Context.reg c arb.roleReg = 1)
    (hchoice : Context.reg c arb.choiceReg = next.toReg) :
    (n.hookCalls next = false ↔
      ∃ m', arb.switch tid c n = .error (.broken .switchChangesThread) m') ∧
    (∀ m', arb.hook tid next c n = .ok none m' ↔ m' = n ∧ next = n.runner ∧ n.armed = false) ∧
    (∀ r m', arb.hook tid next c n = .ok (some r) m' ↔ arb.switch tid c n = .ok r m') ∧
    (∀ e m', arb.hook tid next c n = .error e m' ↔
      arb.switch tid c n = .error e m' ∧ e ≠ .broken .switchChangesThread) ∧
    (arb.hook tid next c n = .error (.violation (.keptWhileArmed next)) n ↔
      next = n.runner ∧ n.armed = true) := by
  have hs := hn ▸ arb.sound_foldl es (sound_of_create h)
  have hnext := decision_of_toReg hchoice
  have hpass := passes_iff_switch_refused hs hrole he hnext
  have hcalls {k : EStateM.Result Fault (Ledger C σ) (Resume C)} (hk : arb.switch tid c n = k)
      (hne : ∀ m', k ≠ .error (.broken .switchChangesThread) m') : n.hookCalls next = true := by
    refine Bool.not_eq_false _ ▸ fun hfalse => ?_
    obtain ⟨m', hswitch⟩ := hpass.mp hfalse
    exact hne m' (hk.symm.trans hswitch)
  refine ⟨hpass, fun m' => ?_, fun r m' => ?_, fun e m' => ?_, ?_⟩
  · rw [hook_passes_iff, hs.hookCalls_eq_false_iff, and_comm]
  · rw [hook_answers_iff]
    exact and_iff_right_of_imp fun hok => hcalls hok fun _ => nofun
  · rw [hook_fails_iff]
    constructor
    · rintro ⟨hcall, hswitch⟩
      refine ⟨hswitch, ?_⟩
      rintro rfl
      rw [hpass.mpr ⟨m', hswitch⟩] at hcall
      nomatch hcall
    · rintro ⟨hswitch, hne⟩
      refine ⟨hcalls hswitch fun m'' heq => hne ?_, hswitch⟩
      cases heq
      rfl
  · rw [hook_fails_iff, switch_kept_iff hs hrole he hnext, and_iff_right rfl]
    refine and_iff_right_of_imp fun hkept => ?_
    exact hcalls ((switch_kept_iff hs hrole he hnext).mpr ⟨rfl, hkept⟩) fun _ => nofun

/-- Two threads have arrived.  A hook passes over the runner; once a block is armed it reports that, as it
reports a decision for nobody. -/
theorem hook_agrees_with_switch_rotation :
    let es : List (Event Cursor Rotation) :=
      [.call (.arrive ⟨0⟩ (.start ⟨0⟩)), .call (.arrive ⟨1⟩ (.start ⟨1⟩))]
    let n := twoSlots.follow (.fresh 2 {}) es
    let n' := twoSlots.follow (.fresh 2 {}) (es ++ [.call .armBlock])
    let asked (t : ThreadId) :=
      Context.setReg (twoSlots.stampExecutor ⟨0⟩ (.start ⟨0⟩)) twoSlots.choiceReg t.toReg
    twoSlots.hook ⟨0⟩ ⟨0⟩ (asked ⟨0⟩) n = .ok none n ∧
      twoSlots.hook ⟨0⟩ ⟨0⟩ (asked ⟨0⟩) n' = .error (.violation (.keptWhileArmed ⟨0⟩)) n' ∧
      twoSlots.hook ⟨0⟩ .nobody (asked .nobody) n' = .error (.violation (.outOfRange .nobody 2)) n' := by
  intro es n n' asked
  obtain ⟨setup, h⟩ := create_twoSlots
  have hasked : Context.reg (asked ⟨0⟩) twoSlots.choiceReg = (⟨0⟩ : ThreadId).toReg := rfl
  have hplain := hook_agrees_with_switch (n := n) h rfl rfl rfl hasked
  have harmed (t : ThreadId) (hrole : Context.reg (asked t) twoSlots.roleReg = 1)
      (hchoice : Context.reg (asked t) twoSlots.choiceReg = t.toReg) :=
    hook_agrees_with_switch (n := n') h rfl rfl hrole hchoice
  refine ⟨(hplain.2.1 n).mpr ⟨rfl, rfl, rfl⟩, ?_, ?_⟩
  · exact (harmed ⟨0⟩ rfl rfl).2.2.2.2.mpr ⟨rfl, rfl⟩
  · exact ((harmed .nobody rfl rfl).2.2.2.1 _ _).mpr ⟨rfl, nofun⟩

end Arbiter

end SoleRunner
