import SoleRunner.Proofs.Stationed

/-!
# Proofs/SingleRunner — at most one thread runs controlled code

A thread outside its handlers runs controlled code exactly if the role register of its context is not 0.
That register follows the executor role: the executor's context carries it unless the executor is alone
in a system call, and no other context carries it (`Marked`).  Saved contexts may carry anything, since
a context is stamped whenever it is handed out.
-/

namespace SoleRunner

/-- **Contexts really store register `r`**: it reads as it was last written, and no other register's
change is seen in it. -/
structure Context.Stores (C : Type) [Context C] (r : Register) : Prop where
  reg_setReg : ∀ (c : C) (v : UInt64), Context.reg (Context.setReg c r v) r = v
  reg_setReg_of_ne : ∀ (c : C) (r' : Register) (v : UInt64), r' ≠ r →
    Context.reg (Context.setReg c r' v) r = Context.reg c r

/-- A cursor stores the registers that it has. -/
theorem Cursor.stores {r : Register} (h : r.slot.toNat < 4) : Context.Stores Cursor r where
  reg_setReg c v := by
    change (c.regs.setIfInBounds r.slot.toNat v)[r.slot.toNat]?.getD 0 = v
    rw [Vector.getElem?_setIfInBounds_self_of_lt h]
    rfl
  reg_setReg_of_ne c r' v hne := by
    have hslot : r'.slot.toNat ≠ r.slot.toNat := fun e =>
      hne (congrArg Register.mk (UInt16.toNat_inj.mp e))
    change (c.regs.setIfInBounds r'.slot.toNat v)[r.slot.toNat]?.getD 0 = c.reg r
    rw [Vector.getElem?_setIfInBounds_ne hslot]
    rfl

namespace Arbiter

variable {C σ : Type} [Context C] {arb : Arbiter C σ}

/-- The mark of the executor can be read back. -/
theorem reg_stampExecutor (hs : Context.Stores C arb.roleReg) (hne : arb.roleReg ≠ arb.choiceReg)
    (tid : ThreadId) (c : C) : Context.reg (arb.stampExecutor tid c) arb.roleReg = 1 := by
  rw [stampExecutor, hs.reg_setReg_of_ne _ _ _ hne.symm, hs.reg_setReg]

/-- So can its absence. -/
theorem reg_stampPlain (hs : Context.Stores C arb.roleReg) (hne : arb.roleReg ≠ arb.choiceReg)
    (c : C) : Context.reg (arb.stampPlain c) arb.roleReg = 0 := by
  rw [stampPlain, hs.reg_setReg_of_ne _ _ _ hne.symm, hs.reg_setReg]

end Arbiter

namespace Crew

open Critical Arbiter

variable {C σ : Type} [Context C]

/-- A thread at this place runs no controlled code. -/
def Plain (arb : Arbiter C σ) (p : Place C) : Prop :=
  ∀ c last, p = .outside c last → Context.reg c arb.roleReg = 0

/-- **The executor of `m` at this place** runs the runner's code, as its last answer said; or it is
alone in a system call of its own. -/
def Leads (arb : Arbiter C σ) (m : Ledger C σ) (p : Place C) : Prop :=
  ∀ c last, p = .outside c last →
    Context.reg c arb.roleReg = 1 ∧ m.owesUncapture = false ∧
        (∃ r, last = some r ∧ r.role = .executor ∧ r.tid = m.runner) ∨
      Context.reg c arb.roleReg = 0 ∧ m.owesUncapture = true ∧ m.runner = m.executor

/-- **The role register follows the executor role.** -/
structure Marked (arb : Arbiter C σ) (w : Crew C σ) : Prop where
  plain : ∀ u, u ≠ w.ledger.executor → Plain arb (w.place u)
  leads : w.ledger.executor ≠ .nobody → Leads arb w.ledger (w.place w.ledger.executor)
  owes_of_vacant : w.ledger.executor = .nobody → w.ledger.owesUncapture = false

variable {arb : Arbiter C σ} {w : Crew C σ} {m : Ledger C σ} {tid : ThreadId} {p : Place C} {c : C}
  {last : Option (Resume C)}

theorem plain_absent : Plain arb (.absent : Place C) := nofun

theorem plain_inside (b : Bool) : Plain arb (.inside b : Place C) := nofun

theorem plain_outside (h : Context.reg c arb.roleReg = 0) : Plain arb (.outside c last) := by
  rintro _ _ ⟨⟩
  exact h

/-- An executor that has just been resumed leads, unless it owes an uncapture. -/
theorem leads_resumed {r : Resume C} (hc : Context.reg r.context arb.roleReg = 1)
    (hr : r.role = .executor) (htid : r.tid = m.runner) (ho : m.owesUncapture = false) :
    Leads arb m r.place := by
  rintro _ _ ⟨⟩
  exact .inl ⟨hc, ho, r, rfl, hr, htid⟩

/-- An executor with the role register set has no debt. -/
theorem Leads.owes_of_ne (h : Leads arb m (.outside c last)) (hc : Context.reg c arb.roleReg ≠ 0) :
    m.owesUncapture = false :=
  (h c last rfl).elim (fun h => h.2.1) (fun h => absurd h.1 hc)

/-- An executor in debt has the role register cleared. -/
theorem Leads.plain_of_owes (h : Leads arb m p) (ho : m.owesUncapture = true) : Plain arb p := by
  rintro c last rfl
  refine (h c last rfl).elim (fun h => ?_) And.left
  rw [h.2.1] at ho
  nomatch ho

/-- Nobody carries the mark in a new crew. -/
theorem marked_new (he : m.executor = .nobody) (ho : m.owesUncapture = false) :
    Marked arb (new m) where
  plain _ _ := plain_absent
  leads h := absurd he h
  owes_of_vacant _ := ho

/-! ## The ways in which a crew moves -/

/-- What is done beside the threads does not matter. -/
theorem Marked.aside (h : Marked arb w) (hk : w.ledger.Keeps m) :
    Marked arb { w with ledger := m } where
  plain u hu := h.plain u (hk.executor_eq ▸ hu)
  leads he := by
    rw [hk.executor_eq] at he
    intro c last hp
    rw [hk.executor_eq] at hp
    rw [hk.executor_eq, hk.runner_eq, hk.owes_eq]
    exact h.leads he c last hp
  owes_of_vacant he := by
    rw [hk.executor_eq] at he
    rw [hk.owes_eq]
    exact h.owes_of_vacant he

/-- `tid` ends up as the executor, and the former one, if it is another thread, has lost the mark. -/
theorem Marked.executes (h : Marked arb w) (he : m.executor = tid) (hn : tid ≠ .nobody)
    (hold : w.ledger.executor = tid ∨ Plain arb (w.place w.ledger.executor)) (hp : Leads arb m p) :
    Marked arb (w.put m tid p) where
  plain u hu := by
    rw [ledger_put, he] at hu
    rw [place_put_of_ne hu]
    rcases eq_or_ne u w.ledger.executor with rfl | hex
    · exact hold.resolve_left hu
    · exact h.plain u hex
  leads _ := by
    rw [ledger_put, he, place_put_self]
    exact hp
  owes_of_vacant hvacant := absurd (he.symm.trans hvacant) hn

/-- `tid` is not the executor, and goes on without the mark. -/
theorem Marked.passes (h : Marked arb w) (he : m.executor = w.ledger.executor)
    (hr : m.runner = w.ledger.runner) (ho : m.owesUncapture = w.ledger.owesUncapture)
    (hne : tid ≠ w.ledger.executor) (hp : Plain arb p) : Marked arb (w.put m tid p) where
  plain u hu := by
    rcases eq_or_ne u tid with rfl | hut
    · rwa [place_put_self]
    · rw [place_put_of_ne hut]
      exact h.plain u (he ▸ hu)
  leads hexec := by
    rw [ledger_put, he] at hexec
    intro c last hplace
    rw [ledger_put, he, place_put_of_ne hne.symm] at hplace
    rw [ledger_put, he, hr, ho]
    exact h.leads hexec c last hplace
  owes_of_vacant hvacant := by
    rw [ledger_put, ho]
    exact h.owes_of_vacant (he ▸ hvacant)

/-- The executor gives up its role and the mark. -/
theorem Marked.vacates (h : Marked arb w) (he : m.executor = .nobody) (hold : w.ledger.executor = tid)
    (ho : m.owesUncapture = false) (hp : Plain arb p) : Marked arb (w.put m tid p) where
  plain u _ := by
    rcases eq_or_ne u tid with rfl | hut
    · rwa [place_put_self]
    · rw [place_put_of_ne hut]
      exact h.plain u (hold ▸ hut)
  leads hne := absurd he hne
  owes_of_vacant _ := ho

/-! ## Every move -/

section

variable (hstore : Context.Stores C arb.roleReg) (hregs : arb.roleReg ≠ arb.choiceReg)

include hstore hregs

/-- Whoever is resumed by itself carries no mark. -/
theorem plain_stamped (tid : ThreadId) (role : Role) (c : C) :
    Plain arb (Resume.place ⟨tid, role, arb.stampPlain c⟩) :=
  plain_outside (reg_stampPlain hstore hregs c)

/-- Whoever is resumed as the executor leads. -/
theorem leads_stamped (tid : ThreadId) (c : C) (htid : tid = m.runner)
    (ho : m.owesUncapture = false) :
    Leads arb m (Resume.place ⟨tid, .executor, arb.stampExecutor tid c⟩) :=
  leads_resumed (reg_stampExecutor hstore hregs tid c) rfl htid ho

/-- A newcomer that takes the role finds it vacant, or held by a thread in debt, which has no mark. -/
theorem Marked.settle (h : Marked arb w) (hw : w.Stationed) {a : Arrival C}
    (hp : w.place tid = .outside c last) (hu : w.ledger.table.Outside tid)
    (ho : Settles arb tid (w.ledger.entered arb.scheduler tid c) (.ok a m)) :
    Marked arb (w.put m tid a.place) := by
  have hn := hw.ne_nobody_of_outside hp
  cases ho with
  | paid howes he hn' hr hd ha hnext hx =>
    have hexec : w.ledger.executor ≠ .nobody := he ▸ hr
    refine h.executes rfl hn (.inr ((h.leads hexec).plain_of_owes howes)) ?_
    exact leads_stamped hstore hregs _ _ (by simp) (by simp)
  | took howes he hr hx =>
    have hvacant : w.ledger.executor = .nobody := he
    refine h.executes rfl hn (.inr ?_) (leads_stamped hstore hregs _ _ (by simp) (by simpa using howes))
    rw [hvacant, hw.nobody_absent]
    exact plain_absent
  | waits howes he =>
    have hlater : w.ledger.captured ≠ 0 :=
      Nat.ne_of_gt (hw.sound.balanced.captured_pos_of_runner (hw.executor_runs he))
    exact h.passes rfl (Ledger.entered_runner_of_later hlater) rfl (hw.ne_executor_of_uncaptured hu)
      (plain_inside false)

theorem Marked.arrive (h : Marked arb w) (hw : w.Stationed) {a : Arrival C}
    (hp : w.place tid = .outside c last) (ho : Arrives arb tid c w.ledger (.ok a m)) :
    Marked arb (w.put m tid a.place) := by
  cases ho with
  | returned hrun he hn =>
    refine h.executes he (hw.ne_nobody_of_outside hp) (.inl he) ?_
    exact leads_stamped hstore hregs _ _ (hw.sound.balanced.runner_eq_of_running hrun) (by simp)
  | joined hu hset => exact h.settle hstore hregs hw hp hu hset

theorem Marked.look (h : Marked arb w) (hw : w.Stationed) {a : Arrival C}
    (hp : w.place tid = .inside true) (ho : Looks arb tid w.ledger (.ok a m)) :
    Marked arb (w.put m tid a.place) := by
  have hn := hw.ne_nobody_of_inside hp
  have hother := hw.ne_executor_of_inside hp
  cases ho with
  | released hu hc => exact h.passes rfl rfl rfl hother (plain_stamped hstore hregs _ _ _)
  | took hstate hne he hr hx =>
    refine h.executes rfl hn (.inr ?_) ?_
    · rw [he, hw.nobody_absent]
      exact plain_absent
    · exact leads_stamped hstore hregs _ _ (by simp) (by simpa using h.owes_of_vacant he)
  | waits hstate hne he => exact h.passes rfl rfl rfl hother (plain_inside false)

theorem Marked.depart (h : Marked arb w) (hw : w.Stationed) {r : Resume C}
    (hp : w.place tid = .outside c last) (hc : Context.reg c arb.roleReg ≠ 0)
    (ho : Departs arb tid c w.ledger (.ok r m)) : Marked arb (w.put m tid r.place) := by
  have hn := hw.ne_nobody_of_outside hp
  have howes (he : w.ledger.executor = tid) : w.ledger.owesUncapture = false := by
    have hleads := h.leads (he ▸ hn)
    rw [he, hp] at hleads
    exact hleads.owes_of_ne hc
  cases ho with
  | shipped he hr hne hn' ha hnext hx =>
    refine h.executes he hn (.inl he) ?_
    exact leads_stamped hstore hregs _ _ (by simp) (by simpa using howes he)
  | handedOver he hr htid hn' ha hnext =>
    exact h.vacates (by simp) he (by simpa using howes he) (plain_stamped hstore hregs _ _ _)
  | owed he hr htid hn' ho =>
    refine h.executes he hn (.inl he) ?_
    rintro _ _ ⟨⟩
    exact .inr ⟨reg_stampPlain hstore hregs c, by simp, by simp [he, hr]⟩

theorem Marked.switch (h : Marked arb w) (hw : w.Stationed) {r : Resume C}
    (hp : w.place tid = .outside c last) (hc : Context.reg c arb.roleReg ≠ 0)
    (ho : Switches arb tid c w.ledger (.ok r m)) : Marked arb (w.put m tid r.place) := by
  have hn := hw.ne_nobody_of_outside hp
  cases ho with
  | switched hcheck hr hx =>
    obtain ⟨-, he, -, -⟩ := of_checkSwitch hcheck
    have hleads := h.leads (he ▸ hn)
    rw [he, hp] at hleads
    refine h.executes he hn (.inl he) ?_
    exact leads_stamped hstore hregs _ _ (by simp) (by simpa using hleads.owes_of_ne hc)

omit hregs in
theorem Marked.start (h : Marked arb w) (hw : w.Stationed) {c' : C}
    (ho : Starts arb tid c w.ledger (.ok c' m)) : Marked arb (w.put m tid (.outside c' none)) := by
  cases ho with
  | started hu =>
    exact h.passes rfl rfl rfl (hw.ne_executor_of_uncaptured hu) (plain_outside (hstore.reg_setReg c 0))

omit hstore hregs in
theorem Marked.finish (h : Marked arb w) (hw : w.Stationed)
    (ho : Finishes arb tid w.ledger (.ok () m)) : Marked arb (w.put m tid .absent) := by
  cases ho with
  | outside hu =>
    exact h.passes rfl rfl rfl (hw.ne_executor_of_uncaptured hu) plain_absent
  | last hrun hn he => exact h.vacates (by simp) he (by simp) plain_absent

omit hstore hregs in
theorem Marked.compute (h : Marked arb w) (hw : w.Stationed) {c' : C}
    (hp : w.place tid = .outside c last)
    (hc : Context.reg c' arb.roleReg = Context.reg c arb.roleReg) :
    Marked arb (w.put w.ledger tid (.outside c' last)) := by
  have hn := hw.ne_nobody_of_outside hp
  by_cases he : tid = w.ledger.executor
  · have hleads := h.leads (he ▸ hn)
    rw [← he, hp] at hleads
    refine h.executes he.symm hn (.inl he.symm) ?_
    rintro _ _ ⟨⟩
    rw [hc]
    exact hleads c last rfl
  · exact h.passes rfl rfl rfl he (plain_outside (hc.trans (h.plain tid he c last hp)))

/-- **In a stationed crew every move keeps the marks.** -/
theorem Moves.marked {mv : Move C σ} {w' : Crew C σ} (h : Marked arb w) (hw : w.Stationed)
    (hm : Moves arb w mv w') : Marked arb w' := by
  cases hm with
  | start hp ho => exact h.start hstore hw (ho ▸ arb.startThread_outcome _ _ w.ledger)
  | arrive hp hg ho => exact h.arrive hstore hregs hw hp (ho ▸ arrive_outcome hw.sound.balanced)
  | depart hp hg ho => exact h.depart hstore hregs hw hp hg (ho ▸ depart_outcome hw.sound.balanced)
  | switch hp hg ho => exact h.switch hstore hregs hw hp hg (ho ▸ switch_outcome hw.sound.balanced)
  | finish hp hg ho => exact h.finish hw (ho ▸ arb.endThread_outcome _ w.ledger)
  | compute hp hg => exact h.compute hw hp hg
  | wake hp hpermit =>
    exact h.passes rfl rfl rfl (hw.ne_executor_of_inside hp) (plain_inside true)
  | look hp ho => exact h.look hstore hregs hw hp (ho ▸ lookAgain_outcome hw.sound.balanced)
  | plan => exact h.aside (arb.keeps_planUnit _ w.ledger)
  | request hc => exact h.aside (arb.keeps_request hc w.ledger)
  | edit => exact h.aside (editContext_outcome _ _ w.ledger).keeps
  | think => exact h.aside (w.ledger.keeps_think _)

end

/-! ## Runs -/

variable {scheduler : Scheduler C σ} {initial : σ} {config : Config} {setup setup' : Setup C σ}
  {mvs : List (Move C σ)}

/-- **The mark is where it should be after every run.** -/
theorem marked_of_run (h : create scheduler initial config setup = .ok (arb, m) setup')
    (hstore : Context.Stores C arb.roleReg) (hrun : (new m).run arb mvs = some w) :
    w.Stationed ∧ Marked arb w := by
  have hnew : (new m).Stationed ∧ Marked arb (new m) := by
    refine ⟨stationed_of_create h, ?_⟩
    obtain ⟨-, -, -, rfl⟩ := of_create_ok h
    exact marked_new rfl rfl
  obtain ⟨-, -, hregs, -⟩ := of_create_ok h
  refine of_run (P := fun w => w.Stationed ∧ Marked arb w) (fun v v' mv hv hmv => ?_) hnew hrun
  exact ⟨hmv.stationed hv.1, hmv.marked hstore hregs hv.2 hv.1⟩

/-- **At most one thread runs controlled code.**  In every state that a crew of a new arbiter can reach,
if contexts really store the role register: no two threads outside their handlers have a context whose
role register is set; and one that has is the arbiter's executor, is not in a system call of its own,
and was last resumed as executor with the code of the thread that is the runner now. -/
theorem single_runner (h : create scheduler initial config setup = .ok (arb, m) setup')
    (hstore : Context.Stores C arb.roleReg) (hrun : (new m).run arb mvs = some w) :
    (∀ u v c d l k, w.place u = .outside c l → w.place v = .outside d k →
      Context.reg c arb.roleReg ≠ 0 → Context.reg d arb.roleReg ≠ 0 → u = v) ∧
    ∀ u c last, w.place u = .outside c last → Context.reg c arb.roleReg ≠ 0 →
      u = w.ledger.executor ∧ w.ledger.owesUncapture = false ∧
      ∃ r, last = some r ∧ r.role = .executor ∧ r.tid = w.ledger.runner ∧
        w.ledger.table.state? r.tid = some .running := by
  obtain ⟨hw, hm⟩ := marked_of_run h hstore hrun
  have hexec u c last (hp : w.place u = .outside c last) (hc : Context.reg c arb.roleReg ≠ 0) :
      u = w.ledger.executor := Classical.byContradiction fun hne => hc (hm.plain u hne c last hp)
  refine ⟨fun u v c d l k hu hv hc hd => ?_, fun u c last hp hc => ?_⟩
  · exact (hexec u c l hu hc).trans (hexec v d k hv hd).symm
  · have he := hexec u c last hp hc
    have hn := hw.ne_nobody_of_outside hp
    refine ⟨he, ?_⟩
    obtain ⟨-, ho, r, hlast, hrole, htid⟩ | ⟨hzero, -⟩ := hm.leads (he ▸ hn) c last (he ▸ hp)
    · refine ⟨ho, r, hlast, hrole, htid, ?_⟩
      rw [htid]
      exact hw.sound.balanced.runner_running (hw.executor_runs (he ▸ hn))
    · exact absurd hzero hc

/-- The second of two threads takes the role that the first one gave up for its system call. -/
theorem single_runner_rotation :
    ∃ (w : Crew Cursor Rotation) (c : Cursor) (last : Option (Resume Cursor)),
      (new (.fresh 2 {})).run twoSlots [.start ⟨0⟩ (.start ⟨0⟩), .arrive ⟨0⟩, .start ⟨1⟩ (.start ⟨1⟩),
        .arrive ⟨1⟩, .depart ⟨0⟩, .wake ⟨1⟩, .look ⟨1⟩] = some w ∧
      w.place ⟨1⟩ = .outside c last ∧ Context.reg c ⟨0⟩ ≠ 0 ∧ ⟨1⟩ = w.ledger.executor := by
  obtain ⟨setup, h⟩ := create_twoSlots
  obtain ⟨w, c, last, hrun, hp, hc⟩ : ∃ (w : Crew Cursor Rotation) (c : Cursor) (last : _),
      (new (.fresh 2 {})).run twoSlots [.start ⟨0⟩ (.start ⟨0⟩), .arrive ⟨0⟩, .start ⟨1⟩ (.start ⟨1⟩),
        .arrive ⟨1⟩, .depart ⟨0⟩, .wake ⟨1⟩, .look ⟨1⟩] = some w ∧
      w.place ⟨1⟩ = .outside c last ∧ Context.reg c ⟨0⟩ ≠ 0 := ⟨_, _, _, rfl, rfl, by decide⟩
  have hstore : Context.Stores Cursor ⟨0⟩ := Cursor.stores (by decide)
  obtain ⟨-, hholder⟩ := single_runner h hstore hrun
  exact ⟨w, c, last, hrun, hp, hc, (hholder _ _ _ hp hc).1⟩

end Crew

end SoleRunner
