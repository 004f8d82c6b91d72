import SoleRunner.Proofs.Crew
import SoleRunner.Proofs.Frame

/-!
# Proofs/Stationed — everybody in a crew is where the ledger says

In a crew everybody inside the program is either the executor's own thread, which is in some code, or
waits at its wake slot.  Whoever is to go on is called: there is a permit in its slot, or its wait has
returned already.  That is so of a runner while the executor role is vacant, and of a thread whose
system call has been shipped (`Stationed`).  Every move keeps a crew stationed (`Moves.stationed`), and
so does every run of a new arbiter's crew (`stationed_of_run`).
-/

namespace SoleRunner

namespace Crew

open Critical Arbiter

variable {C σ : Type}

/-- `tid` waits, and its wait has returned or will return at once. -/
def Called (w : Crew C σ) (tid : ThreadId) : Prop :=
  ∃ b, w.place tid = .inside b ∧ (b = true ∨ w.ledger.hasPermit tid)

/-- **Everybody is where the ledger says**, and nobody sleeps who is to go on. -/
structure Stationed (w : Crew C σ) : Prop where
  sound : w.ledger.Sound
  nobody_absent : w.place .nobody = .absent
  slots : w.ledger.permits.size = w.ledger.table.capacity
  /-- Whoever is inside the program waits, but for the executor. -/
  waits : ∀ u, w.ledger.table.Inside u → u ≠ w.ledger.executor → ∃ b, w.place u = .inside b
  executor_outside :
    w.ledger.executor ≠ .nobody → ∃ c last, w.place w.ledger.executor = .outside c last
  /-- An executor has somebody's code to run. -/
  executor_runs : w.ledger.executor ≠ .nobody → w.ledger.runner ≠ .nobody
  /-- While the role is vacant, the runner is called to take it. -/
  runner_called :
    w.ledger.executor = .nobody → w.ledger.runner ≠ .nobody → w.Called w.ledger.runner
  /-- A thread that waits and has been uncaptured is called to make its system call. -/
  released_called : ∀ u b, w.place u = .inside b → w.ledger.table.Outside u → w.Called u

variable {w : Crew C σ} {m : Ledger C σ} {tid : ThreadId} {p : Place C}

theorem stationed_new (hs : m.Sound) (he : m.executor = .nobody) (hr : m.runner = .nobody)
    (hin : ∀ u, ¬ m.table.Inside u) (hslots : m.permits.size = m.table.capacity) :
    (new m).Stationed where
  sound := hs
  nobody_absent := rfl
  slots := hslots
  waits u hu := absurd hu (hin u)
  executor_outside h := absurd he h
  executor_runs h := absurd he h
  runner_called _ h := absurd hr h
  released_called _ _ hp := nomatch hp

/-! ## Calls -/

/-- A call stays where the thread is when no permit is taken away. -/
theorem Called.of_permits {u : ThreadId} (h : w.Called u) (hu : u ≠ tid)
    (hmono : w.ledger.hasPermit u → m.hasPermit u) : (w.put m tid p).Called u := by
  obtain ⟨b, hb, hcall⟩ := h
  exact ⟨b, (place_put_of_ne hu).trans hb, hcall.imp_right hmono⟩

/-- A thread that exists has a name. -/
theorem Stationed.ne_nobody (h : w.Stationed) (hp : w.place tid ≠ .absent) : tid ≠ .nobody := by
  rintro rfl
  exact hp h.nobody_absent

theorem Stationed.ne_nobody_of_outside (h : w.Stationed) {c : C} {last : Option (Resume C)}
    (hp : w.place tid = .outside c last) : tid ≠ .nobody :=
  h.ne_nobody (by rw [hp]; exact nofun)

theorem Stationed.ne_nobody_of_inside (h : w.Stationed) {b : Bool} (hp : w.place tid = .inside b) :
    tid ≠ .nobody := h.ne_nobody (by rw [hp]; exact nofun)

/-- The executor does not wait. -/
theorem Stationed.ne_executor_of_inside (h : w.Stationed) {b : Bool} (hp : w.place tid = .inside b) :
    tid ≠ w.ledger.executor := by
  rintro rfl
  obtain ⟨c, last, hc⟩ := h.executor_outside (h.ne_nobody_of_inside hp)
  rw [hp] at hc
  nomatch hc

/-- The executor is inside the program. -/
theorem Stationed.ne_executor_of_uncaptured (h : w.Stationed) (hu : w.ledger.table.Outside tid) :
    tid ≠ w.ledger.executor := by
  rintro rfl
  exact hu.not_inside (h.sound.executor_inside (h.sound.balanced.ne_nobody hu))

/-! ## The ways in which a crew moves -/

/-- A request changes no thread's place. -/
theorem Stationed.aside (h : w.Stationed) (hk : w.ledger.Keeps m) (hs : m.Sound) :
    Stationed { w with ledger := m } where
  sound := hs
  nobody_absent := h.nobody_absent
  slots := by rw [hk.permits_eq, hk.capacity_eq, h.slots]
  waits u hu he := h.waits u ((hk.inside_iff u).mp hu) (hk.executor_eq ▸ he)
  executor_outside he := by
    rw [hk.executor_eq] at he ⊢
    exact h.executor_outside he
  executor_runs he := by
    rw [hk.executor_eq] at he
    rw [hk.runner_eq]
    exact h.executor_runs he
  runner_called he hr := by
    rw [hk.executor_eq] at he
    rw [hk.runner_eq] at hr ⊢
    obtain ⟨b, hb, hcall⟩ := h.runner_called he hr
    exact ⟨b, hb, hcall.imp_right (Ledger.hasPermit_of_eq hk.permits_eq)⟩
  released_called u b hb ho := by
    obtain ⟨b', hb', hcall⟩ := h.released_called u b hb ((hk.outside_iff u).mp ho)
    exact ⟨b', hb', hcall.imp_right (Ledger.hasPermit_of_eq hk.permits_eq)⟩

/-- `tid` ends up as the executor: nobody else comes into the program, the former executor does not stay
there, and whoever else goes out of it is called. -/
theorem Stationed.executes (h : w.Stationed) (hs : m.Sound)
    (hslots : m.permits.size = m.table.capacity) (he : m.executor = tid) (hn : tid ≠ .nobody)
    (hr : m.runner ≠ .nobody) {c : C} {last : Option (Resume C)}
    (hin : ∀ u, u ≠ tid → m.table.Inside u → w.ledger.table.Inside u ∧ u ≠ w.ledger.executor)
    (hout : ∀ u, m.table.Outside u →
      w.ledger.table.Outside u ∨ u = w.ledger.executor ∨ m.hasPermit u)
    (hmono : ∀ u, w.ledger.hasPermit u → m.hasPermit u) :
    (w.put m tid (.outside c last)).Stationed where
  sound := hs
  nobody_absent := (place_put_of_ne hn.symm).trans h.nobody_absent
  slots := hslots
  waits u hu hne := by
    have hne' : u ≠ tid := fun e => hne (e.trans he.symm)
    obtain ⟨hold, hexec⟩ := hin u hne' hu
    rw [place_put_of_ne hne']
    exact h.waits u hold hexec
  executor_outside _ := by
    rw [ledger_put, he]
    exact ⟨c, last, place_put_self ..⟩
  executor_runs _ := hr
  runner_called hvacant := absurd (he.symm.trans hvacant) hn
  released_called u b hb ho := by
    have hne : u ≠ tid := by
      rintro rfl
      rw [place_put_self] at hb
      nomatch hb
    rw [place_put_of_ne hne] at hb
    obtain hold | rfl | hpermit := hout u ho
    · exact (h.released_called u b hb hold).of_permits hne (hmono u)
    · obtain ⟨d, l, hd⟩ := h.executor_outside (hs.balanced.ne_nobody ho)
      rw [hb] at hd
      nomatch hd
    · exact ⟨b, (place_put_of_ne hne).trans hb, .inr hpermit⟩

/-- `tid` ends up at its wake slot, and is not the executor: awake, or in no need to be called. -/
theorem Stationed.settles (h : w.Stationed) (hs : m.Sound)
    (hslots : m.permits.size = m.table.capacity) (he : m.executor = w.ledger.executor)
    (htid : m.executor ≠ tid) (hn : tid ≠ .nobody) {b : Bool}
    (hr : m.runner = w.ledger.runner)
    (hin : ∀ u, u ≠ tid → m.table.Inside u → w.ledger.table.Inside u)
    (hout : ∀ u, u ≠ tid → m.table.Outside u → w.ledger.table.Outside u)
    (hmono : ∀ u, u ≠ tid → w.ledger.hasPermit u → m.hasPermit u)
    (hb : b = true ∨ m.executor ≠ .nobody ∧ ¬ m.table.Outside tid) :
    (w.put m tid (.inside b)).Stationed where
  sound := hs
  nobody_absent := (place_put_of_ne hn.symm).trans h.nobody_absent
  slots := hslots
  waits u hu hne := by
    rcases eq_or_ne u tid with rfl | hut
    · exact ⟨b, place_put_self ..⟩
    · rw [place_put_of_ne hut]
      exact h.waits u (hin u hut hu) (he ▸ hne)
  executor_outside hne := by
    rw [ledger_put] at hne ⊢
    rw [place_put_of_ne htid]
    rw [he] at hne ⊢
    exact h.executor_outside hne
  executor_runs hne := by
    rw [ledger_put, hr]
    exact h.executor_runs (he ▸ hne)
  runner_called hvacant hne := by
    rw [ledger_put] at hvacant hne ⊢
    have hawake : b = true := hb.resolve_right fun h => h.1 hvacant
    by_cases hut : m.runner = tid
    · exact ⟨b, hut ▸ place_put_self .., .inl hawake⟩
    · rw [hr] at hne hut ⊢
      exact (h.runner_called (he ▸ hvacant) hne).of_permits hut (hmono _ hut)
  released_called u b' hb' ho := by
    rcases eq_or_ne u tid with rfl | hut
    · exact ⟨b, place_put_self .., .inl (hb.resolve_right fun h => h.2 ho)⟩
    · rw [place_put_of_ne hut] at hb'
      exact (h.released_called u b' hb' (hout u hut ho)).of_permits hut (hmono u hut)

/-- `tid` is not inside the program but as the executor, and goes on in some code or goes away. -/
theorem Stationed.passes (h : w.Stationed) (hk : w.ledger.Keeps m) (hs : m.Sound)
    (hn : tid ≠ .nobody) (hin : w.ledger.table.Inside tid → tid = w.ledger.executor)
    (hp : ∀ b, p ≠ .inside b) (hex : tid = w.ledger.executor → ∃ c last, p = .outside c last) :
    (w.put m tid p).Stationed where
  sound := hs
  nobody_absent := (place_put_of_ne hn.symm).trans h.nobody_absent
  slots := by rw [ledger_put, hk.permits_eq, hk.capacity_eq, h.slots]
  waits u hu hne := by
    rw [ledger_put, hk.inside_iff] at hu
    rw [ledger_put, hk.executor_eq] at hne
    have hut : u ≠ tid := by
      rintro rfl
      exact hne (hin hu)
    rw [place_put_of_ne hut]
    exact h.waits u hu hne
  executor_outside hne := by
    rw [ledger_put, hk.executor_eq] at hne ⊢
    by_cases hut : tid = w.ledger.executor
    · rw [← hut, place_put_self]
      exact hex hut
    · rw [place_put_of_ne (Ne.symm hut)]
      exact h.executor_outside hne
  executor_runs hne := by
    rw [ledger_put, hk.executor_eq] at hne
    rw [ledger_put, hk.runner_eq]
    exact h.executor_runs hne
  runner_called hvacant hne := by
    rw [ledger_put, hk.executor_eq] at hvacant
    rw [ledger_put, hk.runner_eq] at hne ⊢
    have hut : w.ledger.runner ≠ tid := by
      intro hut
      have hrun := h.sound.balanced.runner_inside hne
      exact hne ((hut.trans (hin (hut ▸ hrun))).trans hvacant)
    exact (h.runner_called hvacant hne).of_permits hut
      (Ledger.hasPermit_of_eq hk.permits_eq)
  released_called u b hb ho := by
    have hut : u ≠ tid := by
      rintro rfl
      rw [place_put_self] at hb
      exact hp b hb
    rw [place_put_of_ne hut] at hb
    exact (h.released_called u b hb ((hk.outside_iff u).mp ho)).of_permits hut
      (Ledger.hasPermit_of_eq hk.permits_eq)

/-- The executor `tid` gives up its role and goes out of the program; a runner that it leaves behind is
called. -/
theorem Stationed.vacates (h : w.Stationed) (hs : m.Sound)
    (hslots : m.permits.size = m.table.capacity) (he : m.executor = .nobody)
    (hold : w.ledger.executor = tid) (hn : tid ≠ .nobody) (hp : ∀ b, p ≠ .inside b)
    (hin : ∀ u, m.table.Inside u → w.ledger.table.Inside u ∧ u ≠ tid)
    (hout : ∀ u, u ≠ tid → m.table.Outside u → w.ledger.table.Outside u)
    (hmono : ∀ u, w.ledger.hasPermit u → m.hasPermit u)
    (hr : m.runner ≠ .nobody → m.hasPermit m.runner) : (w.put m tid p).Stationed where
  sound := hs
  nobody_absent := (place_put_of_ne hn.symm).trans h.nobody_absent
  slots := hslots
  waits u hu _ := by
    obtain ⟨hu', hne⟩ := hin u hu
    rw [place_put_of_ne hne]
    exact h.waits u hu' (hold ▸ hne)
  executor_outside hne := absurd he hne
  executor_runs hne := absurd he hne
  runner_called _ hne := by
    rw [ledger_put] at hne ⊢
    have hrun := hs.balanced.runner_inside hne
    obtain ⟨hu', hut⟩ := hin _ hrun
    obtain ⟨b, hb⟩ := h.waits _ hu' (hold ▸ hut)
    exact ⟨b, (place_put_of_ne hut).trans hb, .inr (hr hne)⟩
  released_called u b hb ho := by
    have hut : u ≠ tid := by
      rintro rfl
      rw [place_put_self] at hb
      exact hp b hb
    rw [place_put_of_ne hut] at hb
    exact (h.released_called u b hb (hout u hut ho)).of_permits hut (hmono u)

/-! ## Every move -/

section

variable [Context C] {arb : Arbiter C σ} {c : C} {last : Option (Resume C)}

theorem Stationed.start (h : w.Stationed) {c' : C}
    (ho : Starts arb tid c w.ledger (.ok c' m)) : (w.put m tid (.outside c' none)).Stationed := by
  have hs : m.Sound := ho.sound h.sound
  cases ho with
  | started hu =>
    exact h.passes (w.ledger.keeps_begun _ _ _) hs (h.sound.balanced.ne_nobody hu)
      (fun hin => absurd hin (Table.Outside.not_inside hu)) (fun b hb => nomatch hb)
      fun _ => ⟨_, _, rfl⟩

/-- A newcomer either takes the role, which nobody keeps beside it, or waits for its turn. -/
theorem Stationed.settle (h : w.Stationed) {a : Arrival C} (hu : w.ledger.table.Outside tid)
    (hs : m.Sound) (ho : Settles arb tid (w.ledger.entered arb.scheduler tid c) (.ok a m)) :
    (w.put m tid a.place).Stationed := by
  have htid : tid ≠ .nobody := h.sound.balanced.ne_nobody hu
  have hb := Ledger.entered_balanced h.sound.balanced arb.scheduler c hu
  cases ho with
  | paid howes he hn hr hd ha hnext hx =>
    refine h.executes hs ?_ rfl htid (hb.ne_nobody hnext) (fun u hut hin => ?_) (fun u hout => ?_)
      fun u => Ledger.hasPermit_of_eq (by simp)
    · simpa using h.slots
    · rw [Ledger.inside_withSaved, Ledger.ledBy_table, Ledger.debtPaid_table,
        Ledger.inside_replaced hb hr hnext, Ledger.inside_entered hu] at hin
      exact ⟨hin.1.resolve_right hut, he ▸ hin.2⟩
    · rw [Ledger.outside_withSaved, Ledger.ledBy_table, Ledger.debtPaid_table,
        Ledger.outside_replaced hb hr hnext, Ledger.outside_entered hu] at hout
      exact hout.imp And.left fun hur => .inl (hur.trans he)
  | took howes he hr hx =>
    have hvacant : w.ledger.executor = .nobody := he
    refine h.executes hs ?_ rfl htid hr (fun u hut hin => ?_) (fun u hout => ?_)
      fun u => Ledger.hasPermit_of_eq (by simp)
    · simpa using h.slots
    · rw [Ledger.inside_withSaved, Ledger.ledBy_table, Ledger.inside_entered hu] at hin
      obtain ⟨s, hstate, hne⟩ := hin.resolve_right hut
      exact ⟨⟨s, hstate, hne⟩, hvacant ▸ h.sound.balanced.ne_nobody hstate⟩
    · rw [Ledger.outside_withSaved, Ledger.ledBy_table, Ledger.outside_entered hu] at hout
      exact .inl hout.1
  | waits howes he =>
    have hother := (h.ne_executor_of_uncaptured hu).symm
    have hlater : w.ledger.captured ≠ 0 :=
      Nat.ne_of_gt (h.sound.balanced.captured_pos_of_runner (h.executor_runs he))
    have hrunner : (w.ledger.entered arb.scheduler tid c).runner = w.ledger.runner :=
      Ledger.entered_runner_of_later hlater
    refine h.settles hs (by simpa using h.slots) rfl hother htid hrunner (fun u hut hin => ?_)
      (fun u _ hout => ?_) (fun u _ => Ledger.hasPermit_of_eq (by simp)) (.inr ⟨he, fun hout => ?_⟩)
    · exact ((Ledger.inside_entered hu).mp hin).resolve_right hut
    · exact ((Ledger.outside_entered hu).mp hout).1
    · exact hout.not_inside (Ledger.inside_entered_self hu)

theorem Stationed.arrive (h : w.Stationed) {a : Arrival C}
    (ho : Arrives arb tid c w.ledger (.ok a m)) : (w.put m tid a.place).Stationed := by
  have hs : m.Sound := ho.sound h.sound
  cases ho with
  | returned hrun he hn =>
    have htid : tid ≠ .nobody := h.sound.balanced.ne_nobody hrun
    refine h.executes hs ?_ he htid (h.sound.balanced.runner_ne_nobody_of_running hrun)
      (fun u hut hin => ?_) (fun u hout => ?_) fun u => Ledger.hasPermit_of_eq (by simp)
    · simpa using h.slots
    · exact ⟨Ledger.inside_withSaved.mp hin, he ▸ hut⟩
    · exact .inl (Ledger.outside_withSaved.mp hout)
  | joined hu hset => exact h.settle hu hs hset

theorem Stationed.look (h : w.Stationed) {a : Arrival C} (hp : w.place tid = .inside true)
    (ho : Looks arb tid w.ledger (.ok a m)) : (w.put m tid a.place).Stationed := by
  have hs : m.Sound := ho.sound h.sound
  cases ho with
  | released hu hc =>
    exact h.passes ((w.ledger.keeps_logged _).trans (Ledger.keeps_withSaved _ _ _)) hs
      (h.ne_nobody_of_inside hp) (fun hin => absurd hin (Table.Outside.not_inside hu))
      (fun b hb => nomatch hb) fun _ => ⟨_, _, rfl⟩
  | took hstate hne he hr hx =>
    have htid : tid ≠ .nobody := h.sound.balanced.ne_nobody hstate
    refine h.executes hs ?_ rfl htid hr (fun u hut hin => ?_) (fun u hout => ?_)
      fun u => Ledger.hasPermit_of_eq (by simp)
    · simpa using h.slots
    · obtain ⟨s, hu, hne'⟩ := Ledger.inside_withSaved.mp hin
      exact ⟨⟨s, hu, hne'⟩, he ▸ h.sound.balanced.ne_nobody hu⟩
    · exact .inl (Ledger.outside_withSaved.mp hout)
  | waits hstate hne he =>
    have hother := (h.ne_executor_of_inside hp).symm
    exact h.settles hs h.slots rfl hother (h.ne_nobody_of_inside hp) rfl (fun u _ hin => hin)
      (fun u _ hout => hout) (fun u _ => Ledger.hasPermit_of_eq (by simp))
      (.inr ⟨he, Table.not_outside_of_state hstate hne⟩)

/-- Whoever makes a system call leaves somebody to go on: itself, or a thread that is called. -/
theorem Stationed.depart (h : w.Stationed) {r : Resume C} (hp : w.place tid = .outside c last)
    (ho : Departs arb tid c w.ledger (.ok r m)) : (w.put m tid r.place).Stationed := by
  have hs : m.Sound := ho.sound h.sound
  have hb := h.sound.balanced
  cases ho with
  | shipped he hr hne hn ha hnext hx =>
    have htid := h.ne_nobody_of_outside hp
    refine h.executes hs (by simpa using h.slots) he htid (hb.ne_nobody hnext) (fun u hut hin => ?_)
      (fun u hout => ?_) fun u hpermit => Ledger.hasPermit_post w.ledger.runner hpermit (by simp)
    · rw [Ledger.inside_withSaved, Ledger.shipped_table,
        Ledger.inside_replaced hb hr hnext] at hin
      exact ⟨hin.1, he ▸ hut⟩
    · rw [Ledger.outside_withSaved, Ledger.shipped_table,
        Ledger.outside_replaced hb hr hnext] at hout
      obtain hout' | rfl := hout
      · exact .inl hout'
      · have hslot : w.ledger.runner.index < w.ledger.permits.size := by
          rw [h.slots]
          exact Table.index_lt_of_state? (hb.runner_running hr)
        exact .inr (.inr (Ledger.hasPermit_post_self hslot (by simp)))
  | @handedOver d next s log he hr htid hn ha hnext =>
    have hrunner : w.ledger.runner ≠ .nobody := hr ▸ htid
    have hpost : (((w.ledger.replaced next d s).handedOver log).withSaved tid
        (arb.stampPlain d)).permits = w.ledger.permits.setIfInBounds next.index true := by simp
    refine h.vacates hs (by simpa using h.slots) (by simp) he htid (fun b hb => nomatch hb)
      (fun u hin => ?_) (fun u hut hout => ?_) (fun u hp => Ledger.hasPermit_post _ hp hpost)
      fun _ => ?_
    · rw [Ledger.inside_withSaved, Ledger.handedOver_table, Ledger.inside_replaced hb hrunner hnext,
        hr] at hin
      exact hin
    · rw [Ledger.outside_withSaved, Ledger.handedOver_table,
        Ledger.outside_replaced hb hrunner hnext] at hout
      exact hout.resolve_right (hr ▸ hut)
    · refine Ledger.hasPermit_post_self ?_ hpost
      rw [h.slots]
      exact Table.index_lt_of_state? hnext
  | owed he hr htid hn howes =>
    refine h.executes hs (by simpa using h.slots) he htid (hr.symm ▸ htid) (fun u hut hin => ?_)
      (fun u hout => ?_) fun u => Ledger.hasPermit_of_eq (by simp)
    · exact ⟨Ledger.inside_withSaved.mp hin, he ▸ hut⟩
    · exact .inl (Ledger.outside_withSaved.mp hout)

theorem Stationed.switch (h : w.Stationed) {r : Resume C} (hp : w.place tid = .outside c last)
    (ho : Switches arb tid c w.ledger (.ok r m)) : (w.put m tid r.place).Stationed := by
  have hs : m.Sound := ho.sound h.sound
  cases ho with
  | switched hcheck hr hx =>
    obtain ⟨-, he, hne, hnext⟩ := of_checkSwitch hcheck
    refine h.executes hs (by simpa using h.slots) he (h.ne_nobody_of_outside hp)
      (h.sound.balanced.ne_nobody hnext) (fun u hut hin => ?_) (fun u hout => ?_)
      fun u => Ledger.hasPermit_of_eq (by simp)
    · rw [Ledger.inside_withSaved, Ledger.inside_switched h.sound.balanced hr hnext] at hin
      exact ⟨hin, he ▸ hut⟩
    · rw [Ledger.outside_withSaved, Ledger.outside_switched h.sound.balanced hr hnext] at hout
      exact .inl hout

omit [Context C] in
theorem Stationed.finish (h : w.Stationed) (hp : w.place tid = .outside c last)
    (ho : Finishes arb tid w.ledger (.ok () m)) : (w.put m tid .absent).Stationed := by
  have hs : m.Sound := ho.sound h.sound
  cases ho with
  | outside hu =>
    exact h.passes (w.ledger.keeps_ended _ _ _) hs (h.ne_nobody_of_outside hp)
      (fun hin => absurd hin (Table.Outside.not_inside hu)) (fun b hb => nomatch hb)
      fun e => absurd e (h.ne_executor_of_uncaptured hu)
  | last hrun hn he =>
    refine h.vacates hs ?_ (by simp) he (h.ne_nobody_of_outside hp) (fun b hb => nomatch hb)
      (fun u hin => (Ledger.inside_vacated hrun).mp hin) (fun u hut hout => ?_)
      (fun u => Ledger.hasPermit_of_eq (by simp)) fun hne => absurd rfl hne
    · simpa [Ledger.vacated] using h.slots
    · exact (Table.outside_congr (Table.state?_mark_of_ne hut)).mp hout

omit [Context C] in
theorem Stationed.wake (h : w.Stationed) (hp : w.place tid = .inside false) :
    (w.put (left (takePermit tid w.ledger)) tid (.inside true)).Stationed := by
  have hother := (h.ne_executor_of_inside hp).symm
  have hs : (w.ledger.woken tid).Sound := h.sound.withRest _ _ _ _ _
  rw [left_takePermit]
  refine h.settles hs (by simpa using h.slots) rfl hother (h.ne_nobody_of_inside hp)
    rfl (fun u _ hin => hin) (fun u _ hout => hout) (fun u hut hpermit => ?_) (.inl rfl)
  rwa [Ledger.hasPermit_take_of_ne hut (Ledger.woken_permits ..)]

omit [Context C] in
/-- What a thread does by itself leaves it where it is. -/
theorem Stationed.compute (h : w.Stationed) (hp : w.place tid = .outside c last) (c' : C) :
    (w.put w.ledger tid (.outside c' last)).Stationed := by
  refine h.passes (.refl _) h.sound (h.ne_nobody_of_outside hp) (fun hin => ?_)
    (fun b hb => nomatch hb) fun _ => ⟨_, _, rfl⟩
  refine Classical.byContradiction fun hne => ?_
  obtain ⟨b, hb⟩ := h.waits tid hin hne
  rw [hp] at hb
  nomatch hb

/-- **Every move keeps a crew stationed.** -/
theorem Moves.stationed {mv : Move C σ} {w' : Crew C σ} (h : w.Stationed) (hm : Moves arb w mv w') :
    w'.Stationed := by
  cases hm with
  | start hp ho => exact h.start (ho ▸ arb.startThread_outcome _ _ w.ledger)
  | arrive hp hg ho => exact h.arrive (ho ▸ arrive_outcome h.sound.balanced)
  | depart hp hg ho => exact h.depart hp (ho ▸ depart_outcome h.sound.balanced)
  | switch hp hg ho => exact h.switch hp (ho ▸ switch_outcome h.sound.balanced)
  | finish hp hg ho => exact h.finish hp (ho ▸ arb.endThread_outcome _ w.ledger)
  | compute hp hg => exact h.compute hp _
  | wake hp hpermit => exact h.wake hp
  | look hp ho => exact h.look hp (ho ▸ lookAgain_outcome h.sound.balanced)
  | plan => exact h.aside (arb.keeps_planUnit _ w.ledger) (sound_planUnit _ h.sound)
  | request hc => exact h.aside (arb.keeps_request hc w.ledger) (arb.sound_perform h.sound _)
  | edit =>
    exact h.aside (editContext_outcome _ _ w.ledger).keeps ((editContext_outcome _ _ _).sound h.sound)
  | think => exact h.aside (w.ledger.keeps_think _) (h.sound.withRest _ _ _ _ _)

/-! ## Runs -/

variable {scheduler : Scheduler C σ} {initial : σ} {config : Config} {setup setup' : Setup C σ}
  {mvs : List (Move C σ)}

omit [Context C] in
theorem stationed_of_create (h : create scheduler initial config setup = .ok (arb, m) setup') :
    (new m).Stationed := by
  have hs : m.Sound := sound_of_create h
  obtain ⟨-, -, -, rfl⟩ := of_create_ok h
  refine stationed_new hs rfl rfl (fun u => Table.not_inside_ofCapacity) ?_
  simp [Ledger.fresh, Table.capacity, Table.ofCapacity]

theorem stationed_of_run (h : create scheduler initial config setup = .ok (arb, m) setup')
    (hrun : (new m).run arb mvs = some w) : w.Stationed :=
  of_run (fun _ _ _ => Moves.stationed) (stationed_of_create h) hrun

end

end Crew

end SoleRunner
