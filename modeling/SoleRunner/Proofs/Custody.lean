import SoleRunner.Proofs.Stationed

/-!
# Proofs/Custody — contexts are not mixed up

There may be two copies of a thread's context: the one that some OS thread goes on with, and the saved
one, which may be old.  Whatever can be said of contexts and is not touched by the arbiter's stamps stays
true of the copies that count (`Custody`): the context of an executor outside its handlers is the
runner's and that of any other thread outside is its own (`Ledger.carried`), and the saved context counts
for everybody else who waits or is the executor.  That is so of every handler, if the scheduler leaves
the contexts it is shown as they are.
-/

namespace SoleRunner

/-- The scheduler leaves every context as it is. -/
def Scheduler.LeavesContexts {C σ : Type} (p : Scheduler C σ) : Prop :=
  ∀ tid c s, (p.choose tid c s).2.1 = c

namespace Ledger

variable {C σ : Type} {m : Ledger C σ} {tid next u : ThreadId} {c : C} {s : σ}
  {p : Scheduler C σ} {st : ThreadState} {log : Array Log.Entry}

/-- Whose context OS thread `u` goes on with outside its handlers. -/
def carried (m : Ledger C σ) (u : ThreadId) : ThreadId := if u = m.executor then m.runner else u

theorem carried_executor (h : u = m.executor) : m.carried u = m.runner := if_pos h

theorem carried_of_ne (h : u ≠ m.executor) : m.carried u = u := if_neg h

/-- An executor that runs its own code carries its own context, as everybody else does. -/
theorem carried_of_own (h : m.runner = m.executor) : m.carried u = u := by
  unfold carried
  split
  next hu => exact h.trans hu.symm
  next => rfl

/-! ## Saved contexts -/

theorem saved?_withSaved_of_ne (hu : u ≠ tid) :
    (m.withSaved tid c).table.saved? u = m.table.saved? u := Table.saved?_save_of_ne hu

theorem saved?_entered_of_ne (hu : u ≠ tid) :
    (m.entered p tid c).table.saved? u = m.table.saved? u :=
  Table.saved?_mark.trans (Table.saved?_save_of_ne hu)

theorem saved?_entered_self (hs : m.table.Outside tid) :
    (m.entered p tid c).table.saved? tid = some c :=
  Table.saved?_mark.trans (Table.saved?_save_self hs)

theorem saved?_replaced_of_ne (hu : u ≠ m.runner) :
    (m.replaced next c s).table.saved? u = m.table.saved? u :=
  Table.saved?_mark.trans (Table.saved?_mark.trans (Table.saved?_save_of_ne hu))

theorem saved?_replaced_runner (hs : m.table.state? m.runner = some st) :
    (m.replaced next c s).table.saved? m.runner = some c :=
  Table.saved?_mark.trans (Table.saved?_mark.trans (Table.saved?_save_self hs))

theorem saved?_switched_of_ne (hu : u ≠ m.runner) :
    (m.switched next c log).table.saved? u = m.table.saved? u :=
  Table.saved?_mark.trans (Table.saved?_mark.trans (Table.saved?_save_of_ne hu))

theorem saved?_switched_runner (hs : m.table.state? m.runner = some st) :
    (m.switched next c log).table.saved? m.runner = some c :=
  Table.saved?_mark.trans (Table.saved?_mark.trans (Table.saved?_save_self hs))

end Ledger

namespace Arbiter

/-- The arbiter's stamps do not touch what `G` says of contexts. -/
structure Ignores {C σ : Type} [Context C] (arb : Arbiter C σ) (G : ThreadId → C → Prop) : Prop where
  role : ∀ {u c} v, G u c → G u (Context.setReg c arb.roleReg v)
  choice : ∀ {u c} v, G u c → G u (Context.setReg c arb.choiceReg v)

variable {C σ : Type} [Context C] {arb : Arbiter C σ} {G : ThreadId → C → Prop} {u : ThreadId} {c : C}

theorem Ignores.executor (h : arb.Ignores G) (tid : ThreadId) (hc : G u c) :
    G u (arb.stampExecutor tid c) := h.choice _ (h.role _ hc)

theorem Ignores.plain (h : arb.Ignores G) (hc : G u c) : G u (arb.stampPlain c) :=
  h.choice _ (h.role _ hc)

end Arbiter

namespace Crew

open Critical Arbiter

variable {C σ : Type} {w : Crew C σ} {m : Ledger C σ} {tid u : ThreadId} {c d : C} {p : Place C}
  {last : Option (Resume C)} {G : ThreadId → C → Prop}

/-- The saved context of `u` counts: `u` waits or is the executor, and no executor has its context. -/
structure Keeps (w : Crew C σ) (u : ThreadId) : Prop where
  waits : u = w.ledger.executor ∨ ∃ b, w.place u = .inside b
  unread : u = w.ledger.runner → w.ledger.executor = .nobody

/-- **Every context that counts is its thread's own**, as far as `G` says. -/
structure Custody (G : ThreadId → C → Prop) (w : Crew C σ) : Prop where
  held : ∀ u c last, w.place u = .outside c last → G (w.ledger.carried u) c
  kept : ∀ u c, w.Keeps u → w.ledger.table.saved? u = some c → G u c

/-- What holds of all contexts for which `G` does, holds of the ones that count. -/
theorem Custody.mono {G' : ThreadId → C → Prop} (h : Custody G w) (hG : ∀ u c, G u c → G' u c) :
    Custody G' w where
  held u c last hp := hG _ _ (h.held u c last hp)
  kept u c hk hc := hG _ _ (h.kept u c hk hc)

theorem custody_new (m : Ledger C σ) (he : m.executor = .nobody) (hn : m.table.saved? .nobody = none) :
    Custody G (new m) where
  held _ _ _ hp := nomatch hp
  kept u c hk hc := by
    obtain hu | ⟨b, hb⟩ := hk.waits
    · rw [hu] at hc
      change m.table.saved? m.executor = some c at hc
      rw [he, hn] at hc
      nomatch hc
    · nomatch hb

/-! ## Who counts -/

/-- Whoever may be chosen has its context saved. -/
theorem Custody.of_idle (h : Custody G w) (hw : w.Stationed)
    (hidle : w.ledger.table.state? u = some .idle) (hc : w.ledger.table.saved? u = some c) : G u c := by
  refine h.kept u c ⟨?_, fun hu => absurd hu (hw.sound.balanced.ne_runner_of_idle hidle)⟩ hc
  refine or_iff_not_imp_left.mpr fun hne => ?_
  exact hw.waits u (Table.inside_of_state hidle (by decide)) hne

/-- While the executor role is vacant, the runner has its context saved. -/
theorem Custody.of_vacant (h : Custody G w) (hw : w.Stationed) (he : w.ledger.executor = .nobody)
    (hr : w.ledger.runner ≠ .nobody) (hc : w.ledger.table.saved? w.ledger.runner = some c) :
    G w.ledger.runner c := by
  obtain ⟨b, hb, -⟩ := hw.runner_called he hr
  exact h.kept _ c ⟨.inr ⟨b, hb⟩, fun _ => he⟩ hc

/-- A thread outside that is not the executor has nothing to do with the runner. -/
theorem Stationed.ne_runner_of_outside (hw : w.Stationed) (hp : w.place u = .outside c last)
    (hne : u ≠ w.ledger.executor) : u ≠ w.ledger.runner := by
  rintro rfl
  have hin := hw.sound.balanced.runner_inside (hw.ne_nobody_of_outside hp)
  obtain ⟨b, hb⟩ := hw.waits _ hin hne
  rw [hp] at hb
  nomatch hb

/-- Two threads outside do not carry the same context. -/
theorem Stationed.carried_inj (hw : w.Stationed) {v : ThreadId} {k : Option (Resume C)}
    (hu : w.place u = .outside c last) (hv : w.place v = .outside d k)
    (h : w.ledger.carried u = w.ledger.carried v) : u = v := by
  by_cases hue : u = w.ledger.executor
  · by_cases hve : v = w.ledger.executor
    · exact hue.trans hve.symm
    · rw [Ledger.carried_executor hue, Ledger.carried_of_ne hve] at h
      exact absurd h.symm (hw.ne_runner_of_outside hv hve)
  · by_cases hve : v = w.ledger.executor
    · rw [Ledger.carried_of_ne hue, Ledger.carried_executor hve] at h
      exact absurd h (hw.ne_runner_of_outside hu hue)
    · rwa [Ledger.carried_of_ne hue, Ledger.carried_of_ne hve] at h

/-- Nobody outside carries a context whose saved copy counts. -/
theorem Stationed.carried_ne_of_keeps (hw : w.Stationed) {v : ThreadId} (hk : w.Keeps u)
    (hv : w.place v = .outside d last) : u ≠ w.ledger.carried v := by
  by_cases hve : v = w.ledger.executor
  · rw [Ledger.carried_executor hve]
    exact fun hu => hw.ne_nobody_of_outside hv (hve.trans (hk.unread hu))
  · rw [Ledger.carried_of_ne hve]
    rintro rfl
    obtain hu | ⟨b, hb⟩ := hk.waits
    · exact hve hu
    · rw [hv] at hb
      nomatch hb

/-! ## The ways in which contexts move -/

/-- A thread does something of its own, after which `G'` is said of contexts: of the others, as before. -/
theorem Custody.compute {G' : ThreadId → C → Prop} (h : Custody G w) (hw : w.Stationed)
    (hp : w.place tid = .outside c last) {c' : C} (hG : G' (w.ledger.carried tid) c')
    (hother : ∀ u d, u ≠ w.ledger.carried tid → G u d → G' u d) :
    Custody G' (w.put w.ledger tid (.outside c' last)) where
  held u d k hu := by
    rcases eq_or_ne u tid with rfl | hut
    · rw [place_put_self] at hu
      cases hu
      exact hG
    · rw [place_put_of_ne hut] at hu
      exact hother _ _ (fun he => hut (hw.carried_inj hu hp he)) (h.held u d k hu)
  kept u d hk hd := by
    have hk' : w.Keeps u := by
      refine ⟨?_, hk.unread⟩
      obtain hu | ⟨b, hb⟩ := hk.waits
      · exact .inl hu
      · have hut : u ≠ tid := by
          rintro rfl
          rw [place_put_self] at hb
          nomatch hb
        rw [place_put_of_ne hut] at hb
        exact .inr ⟨b, hb⟩
    exact hother u d (hw.carried_ne_of_keeps hk' hp) (h.kept u d hk' hd)

/-- What is kept beside the roles and the saved contexts does not matter. -/
theorem Custody.aside (h : Custody G w) (he : m.executor = w.ledger.executor)
    (hr : m.runner = w.ledger.runner)
    (hsaved : ∀ u, m.table.saved? u = w.ledger.table.saved? u) : Custody G { w with ledger := m } where
  held u c last hp := by
    rw [Ledger.carried, he, hr]
    exact h.held u c last hp
  kept u c hk hc := by
    refine h.kept u c ⟨hk.waits.imp_left (·.trans he), fun hu => ?_⟩ ((hsaved u).symm.trans hc)
    exact he.symm.trans (hk.unread (hu.trans hr.symm))

/-- If the roles stay, another thread's saved context counts as before. -/
theorem Keeps.of_put (h : (w.put m tid p).Keeps u) (he : m.executor = w.ledger.executor)
    (hr : m.runner = w.ledger.runner) (hu : u ≠ tid) : w.Keeps u where
  waits := by
    obtain hw | ⟨b, hb⟩ := h.waits
    · exact .inl (hw.trans he)
    · rw [place_put_of_ne hu] at hb
      exact .inr ⟨b, hb⟩
  unread hu := he.symm.trans (h.unread (hu.trans hr.symm))

/-- `tid` ends up as the executor, with the runner's context; the former executor, if it is another
thread, ran its own code. -/
theorem Custody.executes (h : Custody G w) (hw : w.Stationed) (next : ThreadId)
    (he : m.executor = tid) (hr : m.runner = next) (hn : tid ≠ .nobody)
    (hold : w.ledger.executor = tid ∨ w.ledger.executor = .nobody ∨ w.ledger.runner = w.ledger.executor)
    (hG : G next c)
    (hkept : ∀ u d, u ≠ next → u = tid ∨ (∃ b, w.place u = .inside b) →
      m.table.saved? u = some d → G u d) :
    Custody G (w.put m tid (.outside c last)) where
  held u d k hu := by
    rcases eq_or_ne u tid with rfl | hut
    · rw [place_put_self] at hu
      cases hu
      rwa [ledger_put, Ledger.carried_executor he.symm, hr]
    · rw [place_put_of_ne hut] at hu
      have hcarried : w.ledger.carried u = u := by
        obtain hold | hold | hold := hold
        · exact Ledger.carried_of_ne fun e => hut (e.trans hold)
        · exact Ledger.carried_of_ne fun e => hw.ne_nobody_of_outside hu (e.trans hold)
        · exact Ledger.carried_of_own hold
      rw [ledger_put, Ledger.carried_of_ne fun e => hut (e.trans he), ← hcarried]
      exact h.held u d k hu
  kept u d hk hd := by
    refine hkept u d (fun hu => hn (he.symm.trans (hk.unread (hu.trans hr.symm)))) ?_ hd
    obtain hu | ⟨b, hb⟩ := hk.waits
    · exact .inl (hu.trans he)
    · rcases eq_or_ne u tid with rfl | hut
      · exact .inl rfl
      · rw [place_put_of_ne hut] at hb
        exact .inr ⟨b, hb⟩

/-- The roles stay, and `tid`, who is not the executor, goes on with its own context. -/
theorem Custody.leaves (h : Custody G w) (he : m.executor = w.ledger.executor)
    (hr : m.runner = w.ledger.runner) (hne : tid ≠ w.ledger.executor) (hG : G tid c)
    (hkept : ∀ u, u ≠ tid → m.table.saved? u = w.ledger.table.saved? u) :
    Custody G (w.put m tid (.outside c last)) where
  held u d k hu := by
    rw [ledger_put, Ledger.carried, he, hr]
    rcases eq_or_ne u tid with rfl | hut
    · rw [place_put_self] at hu
      cases hu
      rwa [if_neg hne]
    · rw [place_put_of_ne hut] at hu
      exact h.held u d k hu
  kept u d hk hd := by
    have hut : u ≠ tid := by
      rintro rfl
      obtain hu | ⟨b, hb⟩ := hk.waits
      · exact hne (hu.trans he)
      · rw [place_put_self] at hb
        nomatch hb
    rw [ledger_put, hkept u hut] at hd
    exact h.kept u d (hk.of_put he hr hut) hd

/-- The roles stay, and `tid`, who is not the executor, ends up in no code. -/
theorem Custody.passes (h : Custody G w) (he : m.executor = w.ledger.executor)
    (hr : m.runner = w.ledger.runner) (hne : tid ≠ w.ledger.executor)
    (hp : ∀ c last, p ≠ .outside c last)
    (hin : ∀ b d, p = .inside b → (tid = w.ledger.runner → w.ledger.executor = .nobody) →
      m.table.saved? tid = some d → G tid d)
    (hkept : ∀ u, u ≠ tid → m.table.saved? u = w.ledger.table.saved? u) :
    Custody G (w.put m tid p) where
  held u d k hu := by
    have hut : u ≠ tid := by
      rintro rfl
      rw [place_put_self] at hu
      exact hp _ _ hu
    rw [place_put_of_ne hut] at hu
    rw [ledger_put, Ledger.carried, he, hr]
    exact h.held u d k hu
  kept u d hk hd := by
    rcases eq_or_ne u tid with rfl | hut
    · obtain hu | ⟨b, hb⟩ := hk.waits
      · exact absurd (hu.trans he) hne
      · rw [place_put_self] at hb
        exact hin b d hb (fun hu => he.symm.trans (hk.unread (hu.trans hr.symm))) hd
    · rw [ledger_put, hkept u hut] at hd
      exact h.kept u d (hk.of_put he hr hut) hd

/-- The executor `tid`, who ran its own code, gives up its role, and goes on with its own context or
ends. -/
theorem Custody.vacates (h : Custody G w) (hw : w.Stationed) (hs : m.Sound)
    (hold : w.ledger.executor = tid) (hr : w.ledger.runner = tid) (he : m.executor = .nobody)
    (hn : tid ≠ .nobody) (hp : ∀ b, p ≠ .inside b) (hG : ∀ c last, p = .outside c last → G tid c)
    (hkept : ∀ u, u ≠ tid → m.table.saved? u = w.ledger.table.saved? u) :
    Custody G (w.put m tid p) where
  held u d k hu := by
    rcases eq_or_ne u tid with rfl | hut
    · rw [place_put_self] at hu
      rw [ledger_put, Ledger.carried_of_ne fun e => hn (e.trans he)]
      exact hG d k hu
    · rw [place_put_of_ne hut] at hu
      have hheld := h.held u d k hu
      rw [Ledger.carried_of_ne fun e => hut (e.trans hold)] at hheld
      rwa [ledger_put, Ledger.carried_of_ne fun e => hw.ne_nobody_of_outside hu (e.trans he)]
  kept u d hk hd := by
    obtain hu | ⟨b, hb⟩ := hk.waits
    · obtain ⟨s, hstate⟩ := Table.state?_of_saved? hd
      exact absurd (hu.trans he) (hs.balanced.ne_nobody hstate)
    · have hut : u ≠ tid := by
        rintro rfl
        rw [place_put_self] at hb
        exact hp b hb
      rw [ledger_put, hkept u hut] at hd
      rw [place_put_of_ne hut] at hb
      exact h.kept u d ⟨.inr ⟨b, hb⟩, fun hu => absurd (hu.trans hr) hut⟩ hd

/-! ## Every handler -/

section

variable [Context C] {arb : Arbiter C σ}

theorem Custody.start (h : Custody G w) (hw : w.Stationed) (hG : arb.Ignores G) {c' : C}
    (hc : G tid c) (ho : Starts arb tid c w.ledger (.ok c' m)) :
    Custody G (w.put m tid (.outside c' none)) := by
  cases ho with
  | started hu =>
    exact h.leaves rfl rfl (hw.ne_executor_of_uncaptured hu) (hG.role 0 hc) fun _ _ => rfl

/-- A newcomer brings its own context, and takes over the runner's. -/
theorem Custody.settle (h : Custody G w) (hw : w.Stationed) (hG : arb.Ignores G) {a : Arrival C}
    (hp : w.place tid = .outside c last) (hu : w.ledger.table.Outside tid)
    (ho : Settles arb tid (w.ledger.entered arb.scheduler tid c) (.ok a m)) :
    Custody G (w.put m tid a.place) := by
  have hn := hw.ne_nobody_of_outside hp
  have hother := hw.ne_executor_of_uncaptured hu
  have hown : G tid c := Ledger.carried_of_ne hother ▸ h.held tid c last hp
  have hself {d : C} (hd : (w.ledger.entered arb.scheduler tid c).table.saved? tid = some d) :
      G tid d := by
    rw [Ledger.saved?_entered_self hu] at hd
    exact Option.some.inj hd ▸ hown
  cases ho with
  | @paid d d' x next s l howes he hn' hr hd ha hnext hx =>
    have hlater : w.ledger.captured ≠ 0 := by
      have hn'' : w.ledger.captured + 1 = 2 := hn'
      omega
    have hrunner : w.ledger.runner = w.ledger.executor :=
      (Ledger.entered_runner_of_later hlater).symm.trans he
    refine h.executes hw next rfl rfl hn (.inr (.inr hrunner)) (hG.executor next ?_) fun u d hune hu' hd => ?_
    · rcases eq_or_ne next tid with rfl | hnt
      · exact hself hx
      · rw [Ledger.saved?_entered_of_ne hnt] at hx
        rw [Ledger.state?_entered_of_ne hnt] at hnext
        exact h.of_idle hw hnext hx
    · have hur : u ≠ (w.ledger.entered arb.scheduler tid c).runner := by
        rw [he]
        obtain rfl | ⟨b, hb⟩ := hu'
        · exact hother
        · exact hw.ne_executor_of_inside hb
      rw [Ledger.saved?_withSaved_of_ne hune, Ledger.ledBy_table, Ledger.debtPaid_table,
        Ledger.saved?_replaced_of_ne hur] at hd
      rcases eq_or_ne u tid with rfl | hut
      · exact hself hd
      · rw [Ledger.saved?_entered_of_ne hut] at hd
        obtain ⟨b, hb⟩ := hu'.resolve_left hut
        refine h.kept u d ⟨.inr ⟨b, hb⟩, fun hu'' => ?_⟩ hd
        exact absurd (hu''.trans hrunner) (hw.ne_executor_of_inside hb)
  | @took x log howes he hr hx =>
    have hvacant : w.ledger.executor = .nobody := he
    refine h.executes hw (w.ledger.entered arb.scheduler tid c).runner rfl rfl hn
      (.inr (.inl hvacant)) (hG.executor _ ?_) fun u d hune hu' hd => ?_
    · by_cases hrt : (w.ledger.entered arb.scheduler tid c).runner = tid
      · rw [hrt] at hx ⊢
        exact hself hx
      · have hlater : w.ledger.captured ≠ 0 := fun h0 => hrt (if_pos h0)
        have hrunner : (w.ledger.entered arb.scheduler tid c).runner = w.ledger.runner :=
          Ledger.entered_runner_of_later hlater
        rw [Ledger.saved?_entered_of_ne hrt] at hx
        rw [hrunner] at hr hx ⊢
        exact h.of_vacant hw hvacant hr hx
    · rw [Ledger.saved?_withSaved_of_ne hune, Ledger.ledBy_table] at hd
      rcases eq_or_ne u tid with rfl | hut
      · exact hself hd
      · rw [Ledger.saved?_entered_of_ne hut] at hd
        exact h.kept u d ⟨.inr (hu'.resolve_left hut), fun _ => hvacant⟩ hd
  | waits howes he =>
    have hlater : w.ledger.captured ≠ 0 :=
      Nat.ne_of_gt (hw.sound.balanced.captured_pos_of_runner (hw.executor_runs he))
    exact h.passes rfl (Ledger.entered_runner_of_later hlater) hother (fun _ _ => nofun)
      (fun _ _ _ _ => hself) fun u hut => Ledger.saved?_entered_of_ne hut

theorem Custody.arrive (h : Custody G w) (hw : w.Stationed) (hG : arb.Ignores G) {a : Arrival C}
    (hp : w.place tid = .outside c last) (ho : Arrives arb tid c w.ledger (.ok a m)) :
    Custody G (w.put m tid a.place) := by
  cases ho with
  | returned hrun he hn =>
    have hrunner : tid = w.ledger.runner := hw.sound.balanced.runner_eq_of_running hrun
    have hown : G tid c := by
      have hheld := h.held tid c last hp
      rwa [Ledger.carried_executor he.symm, ← hrunner] at hheld
    refine h.executes hw tid he hrunner.symm (hw.ne_nobody_of_outside hp) (.inl he)
      (hG.executor tid hown) fun u d hut hu hd => ?_
    rw [Ledger.saved?_withSaved_of_ne hut] at hd
    refine h.kept u d ⟨.inr (hu.resolve_left hut), fun hu' => ?_⟩ hd
    exact absurd (hu'.trans hrunner.symm) hut
  | joined hu hset => exact h.settle hw hG hp hu hset

theorem Custody.look (h : Custody G w) (hw : w.Stationed) (hG : arb.Ignores G) {a : Arrival C}
    (hp : w.place tid = .inside true) (ho : Looks arb tid w.ledger (.ok a m)) :
    Custody G (w.put m tid a.place) := by
  have hother := hw.ne_executor_of_inside hp
  cases ho with
  | released hu hc =>
    have hne : tid ≠ w.ledger.runner := hw.sound.balanced.ne_runner_of_outside hu
    have hown := h.kept tid _ ⟨.inr ⟨true, hp⟩, fun hu => absurd hu hne⟩ hc
    exact h.leaves rfl rfl hother (hG.plain hown) fun u hut => Ledger.saved?_withSaved_of_ne hut
  | took hs hne he hr hx =>
    refine h.executes hw w.ledger.runner rfl rfl (hw.ne_nobody_of_inside hp) (.inr (.inl he))
      (hG.executor _ (h.of_vacant hw he hr hx)) fun u d hune hu hd => ?_
    rw [Ledger.saved?_withSaved_of_ne hune] at hd
    refine h.kept u d ⟨.inr ?_, fun _ => he⟩ hd
    obtain rfl | hu := hu
    · exact ⟨true, hp⟩
    · exact hu
  | waits hs hne he =>
    refine h.passes rfl rfl hother (fun _ _ => nofun) (fun b d _ hread hd => ?_) fun _ _ => rfl
    exact h.kept tid d ⟨.inr ⟨true, hp⟩, hread⟩ hd

/-- The context that reaches a system call is saved or carried on, as the scheduler left it. -/
theorem Custody.depart (h : Custody G w) (hw : w.Stationed) (hG : arb.Ignores G)
    (hleave : arb.scheduler.LeavesContexts) {r : Resume C} (hp : w.place tid = .outside c last)
    (ho : Departs arb tid c w.ledger (.ok r m)) : Custody G (w.put m tid r.place) := by
  have hs : m.Sound := ho.sound hw.sound
  have hn := hw.ne_nobody_of_outside hp
  have hb := hw.sound.balanced
  have hrunner (he : w.ledger.executor = tid) : G w.ledger.runner c := by
    have hheld := h.held tid c last hp
    rwa [Ledger.carried_executor he.symm] at hheld
  cases ho with
  | @shipped d x next s log he hr hne hn' ha hnext hx =>
    have hd : d = c := by
      have := hleave w.ledger.runner c w.ledger.schedulerState
      rwa [ha] at this
    subst hd
    refine h.executes hw next he rfl hn (.inl he) (hG.executor next (h.of_idle hw hnext hx))
      fun u e hune hu hd => ?_
    rw [Ledger.saved?_withSaved_of_ne hune, Ledger.shipped_table] at hd
    rcases eq_or_ne u w.ledger.runner with rfl | hur
    · rw [Ledger.saved?_replaced_runner (hb.runner_running hr)] at hd
      exact Option.some.inj hd ▸ hrunner he
    · rw [Ledger.saved?_replaced_of_ne hur] at hd
      exact h.kept u e ⟨hu.imp_left (·.trans he.symm), fun hu' => absurd hu' hur⟩ hd
  | @handedOver d next s log he hr htid hn' ha hnext =>
    have hd : d = c := by
      have := hleave tid c w.ledger.schedulerState
      rwa [ha] at this
    subst hd
    refine h.vacates hw hs he hr (by simp) hn (fun b => nofun) ?_ fun u hut => ?_
    · rintro _ _ ⟨⟩
      exact hG.plain (hr ▸ hrunner he)
    · rw [Ledger.saved?_withSaved_of_ne hut, Ledger.handedOver_table,
        Ledger.saved?_replaced_of_ne (hr ▸ hut)]
  | owed he hr htid hn' howes =>
    refine h.executes hw tid he hr hn (.inl he) (hG.plain (hr ▸ hrunner he)) fun u e hut hu hd => ?_
    rw [Ledger.saved?_withSaved_of_ne hut] at hd
    exact h.kept u e ⟨.inr (hu.resolve_left hut), fun hu' => absurd (hu'.trans hr) hut⟩ hd

theorem Custody.switch (h : Custody G w) (hw : w.Stationed) (hG : arb.Ignores G) {r : Resume C}
    (hp : w.place tid = .outside c last) (ho : Switches arb tid c w.ledger (.ok r m)) :
    Custody G (w.put m tid r.place) := by
  cases ho with
  | @switched x log hcheck hr hx =>
    obtain ⟨-, he, hne, hnext⟩ := of_checkSwitch hcheck
    refine h.executes hw (arb.decision c) he rfl (hw.ne_nobody_of_outside hp) (.inl he)
      (hG.executor _ (h.of_idle hw hnext hx)) fun u d hune hu hd => ?_
    rw [Ledger.saved?_withSaved_of_ne hune] at hd
    rcases eq_or_ne u w.ledger.runner with rfl | hur
    · rw [Ledger.saved?_switched_runner (hw.sound.balanced.runner_running hr)] at hd
      have hheld := h.held tid c last hp
      rw [Ledger.carried_executor he.symm] at hheld
      exact Option.some.inj hd ▸ hG.plain hheld
    · rw [Ledger.saved?_switched_of_ne hur] at hd
      exact h.kept u d ⟨hu.imp_left (·.trans he.symm), fun hu' => absurd hu' hur⟩ hd

omit [Context C] in
theorem Custody.finish (h : Custody G w) (hw : w.Stationed) (hp : w.place tid = .outside c last)
    (ho : Finishes arb tid w.ledger (.ok () m)) : Custody G (w.put m tid .absent) := by
  have hs : m.Sound := ho.sound hw.sound
  cases ho with
  | outside hu =>
    exact h.passes rfl rfl (hw.ne_executor_of_uncaptured hu) (fun _ _ => nofun) (fun _ _ => nofun)
      fun _ _ => rfl
  | last hrun hn he =>
    exact h.vacates hw hs he (hw.sound.balanced.runner_eq_of_running hrun).symm rfl
      (hw.ne_nobody_of_outside hp) (fun _ => nofun) (fun _ _ => nofun) fun u _ => Table.saved?_mark

omit [Context C] in
theorem Custody.wake (h : Custody G w) (hw : w.Stationed) (hp : w.place tid = .inside false) :
    Custody G (w.put (w.ledger.woken tid) tid (.inside true)) := by
  refine h.passes rfl rfl (hw.ne_executor_of_inside hp) (fun _ _ => nofun) (fun b d _ hread hd => ?_)
    fun _ _ => rfl
  exact h.kept tid d ⟨.inr ⟨false, hp⟩, hread⟩ hd

end

end Crew

end SoleRunner
