import SoleRunner.Proofs.AnyRun
import SoleRunner.Proofs.Frame
import SoleRunner.Proofs.Undisturbed
import SoleRunner.Scheduler.Journal

/-!
# Proofs/Choosing — a scheduler that is asked can answer

When a scheduler is asked who runs instead of the runner, there is an answer that the arbiter accepts,
and with every such answer the call goes through (`Arbiter.Asks`).  A section asks the scheduler at one
place only, so what it would do with other answers (`Arbiter.answering`) is read off the list of its ends;
`Arbiter.asks_of_chosen` says so of every call on every ledger that can be reached, failed calls included.
-/

namespace SoleRunner

namespace Arbiter

open Critical

variable {C σ α β : Type} {arb : Arbiter C σ} {m k : Ledger C σ} {t tid : ThreadId} {c d : C}

/-- The arbiter whose scheduler answers by `choose`, and is as before otherwise. -/
def answering (arb : Arbiter C σ) (choose : ThreadId → C → σ → ThreadId × C × σ) : Arbiter C σ :=
  { arb with scheduler := { arb.scheduler with choose } }

/-- **The section `x` on ledger `m` asks the scheduler** who runs instead of `t`, whose context is `c`; the
ledger is `k` then. -/
structure Asks (arb : Arbiter C σ) (x : Arbiter C σ → Critical C σ α) (m k : Ledger C σ) (t : ThreadId)
    (c : C) : Prop where
  runner_eq : k.runner = t
  running : k.table.state? t = some .running
  saved : k.table.saved? t = some c
  /-- Another thread is idle, and would be accepted. -/
  idle : ∃ u, u ≠ t ∧ k.table.state? u = some .idle ∧ checkChoice k.table u = .ok ()
  /-- If the answer is not accepted, nothing has happened since the scheduler was asked. -/
  refused : ∀ choose next d s, choose t c k.schedulerState = (next, d, s) →
    checkChoice k.table next ≠ .ok () →
    ∃ v, x (arb.answering choose) m =
      .error (.violation v) { k.withSaved t d with schedulerState := s }
  /-- If the answer is accepted, the section succeeds. -/
  chosen : ∀ choose next d s, choose t c k.schedulerState = (next, d, s) →
    checkChoice k.table next = .ok () →
    ∃ a n, x (arb.answering choose) m = .ok a n ∧ n.table.state? t = some .uncaptured ∧
      n.table.state? next = some .running ∧ n.runner = next ∧ n.captured + 1 = k.captured

/-- What is made of an answer does not matter. -/
theorem Asks.answer {x : Arbiter C σ → Critical C σ α} (h : Asks arb x m k t c) (f : α → β) :
    Asks arb (fun arb => x arb >>= fun a => pure (f a)) m k t c where
  runner_eq := h.runner_eq
  running := h.running
  saved := h.saved
  idle := h.idle
  refused choose next d s ha hno := by
    obtain ⟨v, hx⟩ := h.refused choose next d s ha hno
    exact ⟨v, bind_of_error hx _⟩
  chosen choose next d s ha hyes := by
    obtain ⟨a, n, hx, hn⟩ := h.chosen choose next d s ha hyes
    exact ⟨f a, n, bind_of_ok hx _, hn⟩

/-! ## The two sections that ask -/

/-- **What becomes of an answer** that was given on ledger `k`. -/
inductive Heeds (k : Ledger C σ) : ThreadId × C × σ → EStateM.Result Fault (Ledger C σ) α → Prop
  | refused {v : Violation} {next : ThreadId} {d : C} {s : σ}
      (hnext : k.table.state? next ≠ some .idle) :
      Heeds k (next, d, s) (.error (.violation v) { k.withSaved k.runner d with schedulerState := s })
  | chosen {a : α} {n : Ledger C σ} {next u : ThreadId} {d x : C} {s : σ}
      (hnext : k.table.state? next = some .idle)
      (ht : n.table = (k.replaced next d s).table.save u x) (hr : n.runner = next)
      (hn : n.captured = k.captured - 1) : Heeds k (next, d, s) (.ok a n)

/-- A section asks if it heeds whatever the scheduler answers. -/
theorem asks_of_heeds {x : Arbiter C σ → Critical C σ α} (hb : k.table.Balanced k.captured k.runner)
    (hr : k.runner ≠ .nobody) (hn : 2 ≤ k.captured) (hc : k.table.saved? k.runner = some c)
    (h : ∀ choose, Heeds k (choose k.runner c k.schedulerState) (x (arb.answering choose) m)) :
    Asks arb x m k k.runner c where
  runner_eq := rfl
  running := hb.runner_running hr
  saved := hc
  idle := by
    obtain ⟨u, hu⟩ := hb.exists_idle hn
    exact ⟨u, hb.ne_runner_of_idle hu, hu, checkChoice_of_idle hb.nobody_unknown hu⟩
  refused choose next d s ha hno := by
    have hx := h choose
    rw [ha] at hx
    generalize x (arb.answering choose) m = r at hx ⊢
    cases hx with
    | refused => exact ⟨_, rfl⟩
    | chosen hnext => exact absurd (checkChoice_of_idle hb.nobody_unknown hnext) hno
  chosen choose next d s ha hyes := by
    have hnext := idle_of_checkChoice hyes
    have hne := hb.ne_runner_of_idle hnext
    have hx := h choose
    rw [ha] at hx
    generalize x (arb.answering choose) m = r at hx ⊢
    cases hx with
    | refused hnot => exact absurd hnext hnot
    | @chosen a n _ _ _ _ _ _ ht hrun hcap =>
      refine ⟨a, n, rfl, ?_, ?_, hrun, ?_⟩
      · rw [ht, Table.state?_save]
        exact Ledger.state?_replaced_runner hne (hb.runner_running hr)
      · rw [ht, Table.state?_save]
        exact Ledger.state?_replaced_next hne hnext
      · rw [hcap]
        exact Nat.sub_add_cancel (hb.captured_pos_of_runner hr)

variable [Context C]

/-- An executor that departs while others are captured asks who runs instead. -/
theorem Departs.heeds {r : EStateM.Result Fault (Ledger C σ) (Resume C)} (he : m.executor = tid)
    (hr : m.runner ≠ .nobody) (hn : 2 ≤ m.captured) (h : Departs arb tid c m r) :
    Heeds (m.withSaved m.runner c) (arb.scheduler.choose m.runner c m.schedulerState) r := by
  cases h with
  | foreign hne => exact absurd he hne
  | leaderless _ hr' => exact absurd hr' hr
  | lone _ _ _ hlt => exact absurd hn (Nat.not_le.mpr hlt)
  | @refused v d next s _ _ _ ha hnext =>
    rw [ha, ← Ledger.withSaved_withSaved m m.runner c d]
    exact .refused (k := m.withSaved m.runner c) (Table.state?_save.trans_ne hnext)
  | @shipped d x next s log _ _ _ _ ha hnext hx =>
    rw [ha]
    refine .chosen (k := m.withSaved m.runner c) (u := next) (x := arb.stampExecutor next x)
      (Table.state?_save.trans hnext) ?_ rfl rfl
    rw [Ledger.withSaved_replaced]
    rfl
  | @handedOver d next s log _ hr' _ _ ha hnext =>
    subst hr'
    rw [ha]
    refine .chosen (k := m.withSaved m.runner c) (u := m.runner) (x := arb.stampPlain d)
      (Table.state?_save.trans hnext) ?_ rfl rfl
    rw [Ledger.withSaved_replaced]
    rfl
  | owesAlready _ _ _ hlt => exact absurd hn (Nat.not_le.mpr hlt)
  | owed _ _ _ hlt => exact absurd hn (Nat.not_le.mpr hlt)

theorem asks_depart (arb : Arbiter C σ) (c : C) (hb : m.table.Balanced m.captured m.runner)
    (he : m.executor = tid) (hr : m.runner ≠ .nobody) (hn : 2 ≤ m.captured) :
    Asks arb (fun arb => arb.depart tid c) m (m.withSaved m.runner c) m.runner c :=
  asks_of_heeds (k := m.withSaved m.runner c) hb.save hr hn
    (Table.saved?_save_self (hb.runner_running hr)) fun choose =>
      have ho : Departs (arb.answering choose) tid c m _ := depart_outcome hb
      ho.heeds he hr hn

/-- An arrival that pays an uncapture asks who runs instead of the executor. -/
theorem Settles.heeds {r : EStateM.Result Fault (Ledger C σ) (Arrival C)} (ho : k.owesUncapture = true)
    (he : k.runner = k.executor) (hr : k.runner ≠ .nobody) (hn : k.captured = 2)
    (hd : k.table.saved? k.runner = some d) (h : Settles arb tid k r) :
    Heeds k (arb.scheduler.choose k.runner d k.schedulerState) r := by
  cases h with
  | astray _ hastray => exact absurd hn (hastray.resolve_left (not_not_intro he))
  | unowned _ _ _ hr' => exact absurd hr' hr
  | refused _ _ _ _ hd' ha hnext =>
    rw [Option.some.inj (hd.symm.trans hd'), ha]
    exact .refused hnext
  | paid _ _ _ _ hd' ha hnext =>
    rw [Option.some.inj (hd.symm.trans hd'), ha]
    exact .chosen hnext rfl rfl rfl
  | leaderless ho' => nomatch ho.symm.trans ho'
  | took ho' => nomatch ho.symm.trans ho'
  | waits ho' => nomatch ho.symm.trans ho'

theorem asks_arrive (hb : m.table.Balanced m.captured m.runner) (hs : m.table.Outside tid)
    (hk : k = m.entered arb.scheduler tid c) (ho : k.owesUncapture = true)
    (he : k.runner = k.executor) (hr : k.runner ≠ .nobody) (hn : k.captured = 2)
    (hd : k.table.saved? k.runner = some d) :
    Asks arb (fun arb => arb.arrive tid c) m k k.runner d := by
  subst hk
  refine asks_of_heeds (Ledger.entered_balanced hb _ _ hs) hr (Nat.le_of_eq hn.symm) hd fun choose => ?_
  have harrives : Arrives (arb.answering choose) tid c m _ := arrive_outcome hb
  exact (harrives.of_outside hs).heeds ho he hr hn hd

end Arbiter

/-! ## What is written down -/

namespace Ledger

variable {C σ : Type} {m m' m'' : Ledger C (Journal C σ)} {P Q : ThreadId → C → Prop}
  {p : Scheduler C σ} {t : ThreadId} {c : C} {new : List (Callback C)}

/-- **`m'` has come from `m`, and the scheduler was asked only where `P` holds**: who runs instead of `t`,
with context `c`. -/
def AsksOnly (P : ThreadId → C → Prop) (m m' : Ledger C (Journal C σ)) : Prop :=
  ∃ new, m'.schedulerState.calls = m.schedulerState.calls ++ new ∧ ∀ t c, .choose t c ∈ new → P t c

theorem AsksOnly.of_mem (h : AsksOnly P m m')
    (hnew : m'.schedulerState.calls = m.schedulerState.calls ++ new) (hmem : .choose t c ∈ new) :
    P t c := by
  obtain ⟨xs, hxs, hP⟩ := h
  exact hP t c (List.append_cancel_left (hnew.symm.trans hxs) ▸ hmem)

theorem AsksOnly.imp (h : AsksOnly P m m') (hPQ : ∀ t c, P t c → Q t c) : AsksOnly Q m m' := by
  obtain ⟨new, hnew, hP⟩ := h
  exact ⟨new, hnew, fun t c hmem => hPQ t c (hP t c hmem)⟩

theorem AsksOnly.trans (h : AsksOnly P m m') (h' : AsksOnly P m' m'') : AsksOnly P m m'' := by
  obtain ⟨xs, hxs, hP⟩ := h
  obtain ⟨ys, hys, hP'⟩ := h'
  refine ⟨xs ++ ys, by rw [hys, hxs, List.append_assoc], fun t c hmem => ?_⟩
  exact (List.mem_append.mp hmem).elim (hP t c) (hP' t c)

theorem asksOnly_silently (h : m'.schedulerState = m.schedulerState) : AsksOnly P m m' :=
  ⟨[], by rw [h, List.append_nil], fun _ _ hmem => absurd hmem List.not_mem_nil⟩

/-- The scheduler is told something. -/
theorem asksOnly_told (call : Callback C) (hcall : ∀ t c, call ≠ .choose t c)
    (h : m'.schedulerState.calls = m.schedulerState.calls ++ [call]) : AsksOnly P m m' :=
  ⟨[call], h, fun t c hmem => absurd (List.mem_singleton.mp hmem).symm (hcall t c)⟩

/-- The scheduler is asked. -/
theorem asksOnly_asked {next : ThreadId} {d : C} {s : Journal C σ}
    (ha : p.journaled.choose t c m.schedulerState = (next, d, s)) (hP : P t c)
    (hs : m'.schedulerState = s) : AsksOnly P m m' := by
  refine ⟨[.choose t c], ?_, fun u d hmem => ?_⟩
  · rw [hs, ← p.calls_journaled_choose t c m.schedulerState, ha]
  · obtain ⟨rfl, rfl⟩ := Callback.choose.inj (List.mem_singleton.mp hmem)
    exact hP

end Ledger

namespace Arbiter

open Critical Ledger

variable {C σ : Type} {arb : Arbiter C (Journal C σ)} {m : Ledger C (Journal C σ)}
  {p : Scheduler C σ} {P : ThreadId → C → Prop} {tid : ThreadId} {c : C}

theorem Departs.asksOnly [Context C] {r : EStateM.Result Fault (Ledger C (Journal C σ)) (Resume C)}
    (hp : arb.scheduler = p.journaled) (hb : m.table.Balanced m.captured m.runner)
    (h : Departs arb tid c m r) :
    m.AsksOnly (fun t d => ∃ k, Asks arb (fun arb => arb.depart tid c) m k t d) (left r) := by
  cases h with
  | foreign | leaderless | lone | owesAlready | owed => exact asksOnly_silently rfl
  | refused he hr hn ha =>
    exact asksOnly_asked (hp ▸ ha) ⟨_, arb.asks_depart c hb he hr hn⟩ rfl
  | shipped he hr _ hn ha =>
    exact asksOnly_asked (hp ▸ ha) ⟨_, arb.asks_depart c hb he hr hn⟩ rfl
  | handedOver he hr htid hn ha =>
    subst hr
    exact asksOnly_asked (hp ▸ ha) ⟨_, arb.asks_depart c hb he htid hn⟩ rfl

theorem Settles.asksOnly [Context C] {r : EStateM.Result Fault (Ledger C (Journal C σ)) (Arrival C)}
    (hp : arb.scheduler = p.journaled) (h : Settles arb tid m r)
    (hP : m.owesUncapture = true → m.runner = m.executor → m.runner ≠ .nobody → m.captured = 2 →
      ∀ d, m.table.saved? m.runner = some d → P m.runner d) : m.AsksOnly P (left r) := by
  cases h with
  | astray | unowned | leaderless | took | waits => exact asksOnly_silently rfl
  | refused ho he hn hr hd ha => exact asksOnly_asked (hp ▸ ha) (hP ho he hr hn _ hd) rfl
  | paid ho he hn hr hd ha => exact asksOnly_asked (hp ▸ ha) (hP ho he hr hn _ hd) rfl

theorem Arrives.asksOnly [Context C] {r : EStateM.Result Fault (Ledger C (Journal C σ)) (Arrival C)}
    (hp : arb.scheduler = p.journaled) (hb : m.table.Balanced m.captured m.runner)
    (h : Arrives arb tid c m r) :
    m.AsksOnly (fun t d => ∃ k, Asks arb (fun arb => arb.arrive tid c) m k t d) (left r) := by
  cases h with
  | unknown | inside | astray | returned => exact asksOnly_silently rfl
  | joined hs h =>
    have hjoined : m.schedulerState.calls ++ [.joined tid (m.captured == 0)] =
        (m.entered arb.scheduler tid c).schedulerState.calls := by
      rw [hp]
      rfl
    refine (asksOnly_told _ nofun hjoined.symm).trans (h.asksOnly hp fun ho he hr hn d hd => ?_)
    exact ⟨_, asks_arrive hb hs rfl ho he hr hn hd⟩

theorem Looks.schedulerState_eq [Context C]
    {r : EStateM.Result Fault (Ledger C (Journal C σ)) (Arrival C)} (h : Looks arb tid m r) :
    (left r).schedulerState = m.schedulerState := by cases h <;> rfl

theorem Switches.asksOnly [Context C] {r : EStateM.Result Fault (Ledger C (Journal C σ)) (Resume C)}
    (h : Switches arb tid c m r) : m.AsksOnly P (left r) :=
  asksOnly_silently (by cases h <;> rfl)

theorem Starts.asksOnly [Context C] {r : EStateM.Result Fault (Ledger C (Journal C σ)) C}
    (hp : arb.scheduler = p.journaled) (h : Starts arb tid c m r) : m.AsksOnly P (left r) := by
  cases h with
  | unknown => exact asksOnly_silently rfl
  | astray | started =>
    rw [hp]
    exact asksOnly_told (.started tid) nofun rfl

theorem Finishes.asksOnly {r : EStateM.Result Fault (Ledger C (Journal C σ)) Unit}
    (hp : arb.scheduler = p.journaled) (h : Finishes arb tid m r) : m.AsksOnly P (left r) := by
  cases h with
  | unknown | refused => exact asksOnly_silently rfl
  | outside | last =>
    rw [hp]
    exact asksOnly_told (.ended tid) nofun rfl

theorem asksOnly_planUnit (hp : arb.scheduler = p.journaled) (u : CodeUnit) :
    m.AsksOnly P (left (arb.planUnit u m)) := by
  refine asksOnly_told (.switchPoints u) nofun ?_
  obtain ⟨e, h⟩ | ⟨plan, log, h⟩ := arb.planUnit_apply u m
  all_goals
    rw [h, hp]
    rfl

/-- **What a call asks the scheduler**, whether it succeeds or fails. -/
theorem asksOnly_perform [Context C] (hp : arb.scheduler = p.journaled)
    (hb : m.table.Balanced m.captured m.runner) (call : Call C) :
    m.AsksOnly (fun t d => ∃ k, Asks arb (fun arb => arb.perform call) m k t d)
      (left (arb.perform call m)) := by
  cases call with
  | start tid c => exact left_answer (m.AsksOnly _) (Starts.asksOnly hp (arb.startThread_outcome tid c m))
  | finish tid => exact left_answer (m.AsksOnly _) (Finishes.asksOnly hp (arb.endThread_outcome tid m))
  | arrive tid c =>
    refine left_answer (m.AsksOnly _) (((arrive_outcome hb).asksOnly hp hb).imp fun t d => ?_)
    exact fun ⟨k, hk⟩ => ⟨k, hk.answer Arrival.reply⟩
  | depart tid c =>
    refine left_answer (m.AsksOnly _) (((depart_outcome hb).asksOnly hp hb).imp fun t d => ?_)
    exact fun ⟨k, hk⟩ => ⟨k, hk.answer Reply.resumed⟩
  | switch tid c => exact left_answer (m.AsksOnly _) (Switches.asksOnly (switch_outcome hb))
  | plan u => exact left_answer (m.AsksOnly _) (asksOnly_planUnit hp u)
  | armBlock | block | unblock | readRegister | writeRegister | copyContext | replaceContext =>
    exact asksOnly_silently (arb.schedulerState_request rfl m)

/-- **A scheduler that is asked can answer**, and every answer that is accepted lets the call go through.
Only calls ask: an arrival that looks again does not. -/
theorem asks_of_chosen [Context C] {initial : Journal C σ} {config : Config}
    {setup setup' : Setup C (Journal C σ)} {es : List (Event C (Journal C σ))}
    {n : Ledger C (Journal C σ)}
    (h : create p.journaled initial config setup = .ok (arb, m) setup') (hn : arb.follow m es = n) :
    (∀ tid, (left (arb.lookAgain tid n)).schedulerState = n.schedulerState) ∧
      ∀ call new t c,
        (left (arb.perform call n)).schedulerState.calls = n.schedulerState.calls ++ new →
        .choose t c ∈ new → ∃ k, Asks arb (fun arb => arb.perform call) n k t c := by
  have hs := hn ▸ arb.sound_foldl es (sound_of_create h)
  obtain ⟨-, hp, -, -⟩ := of_create_ok h
  refine ⟨fun tid => (lookAgain_outcome hs.balanced).schedulerState_eq, fun call new t c hnew hmem => ?_⟩
  exact (asksOnly_perform hp hs.balanced call).of_mem hnew hmem

/-- Two threads arrive, and the first one, which runs, makes a system call. -/
theorem asks_journaledSlots : ∃ k, Asks journaledSlots
    (fun arb => arb.perform (.depart ⟨0⟩ (.start ⟨0⟩)))
    (journaledSlots.follow (.fresh 2 ⟨{}, []⟩)
      [.call (.arrive ⟨0⟩ (.start ⟨0⟩)), .call (.arrive ⟨1⟩ (.start ⟨1⟩))]) k ⟨0⟩ (.start ⟨0⟩) := by
  obtain ⟨setup, h⟩ := create_journaledSlots
  exact (asks_of_chosen h rfl).2 _ [.choose ⟨0⟩ (.start ⟨0⟩)] ⟨0⟩ (.start ⟨0⟩) rfl
    List.mem_cons_self

end Arbiter

end SoleRunner
