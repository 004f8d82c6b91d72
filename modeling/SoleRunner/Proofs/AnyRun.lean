import SoleRunner.Arbiter.Call
import SoleRunner.Proofs.Creation
import SoleRunner.Proofs.Outcome.Arrival
import SoleRunner.Proofs.Outcome.Departure
import SoleRunner.Proofs.Outcome.Lifecycle
import SoleRunner.Proofs.Outcome.Requests
import SoleRunner.Proofs.Outcome.Switch

/-!
# Proofs/AnyRun — a ledger stays sound, whoever calls what

An `Event` is anything that can happen to a ledger while its lock is taken once: a call with any
arguments, an arrival that looks again, a permit that is taken, a saved context that is edited, and a
scheduler that changes its mind.  No caller is trusted, and no event has to succeed.  Each kind of event
keeps the ledger sound, by the list of its ends, and so does every run (`Arbiter.sound_follow`).
-/

namespace SoleRunner

namespace Ledger.Sound

variable {C σ : Type} {m : Ledger C σ} {p : Scheduler C σ} {tid next : ThreadId} {c : C} {s : σ}
  {log : Array Log.Entry}

theorem withSaved (h : m.Sound) (tid : ThreadId) (c : C) : (m.withSaved tid c).Sound where
  balanced := h.balanced.save
  executor_inside he := (h.executor_inside he).save
  runnerHint_eq := h.runnerHint_eq
  armedHint_eq := h.armedHint_eq

/-- Nothing that is kept beside the threads matters. -/
theorem withRest (h : m.Sound) (o : Bool) (permits : Array Bool) (stats : Stats) (s : σ)
    (log : Array Log.Entry) :
    { m with owesUncapture := o, permits, stats, schedulerState := s, log : Ledger C σ }.Sound :=
  ⟨h.balanced, h.executor_inside, h.runnerHint_eq, h.armedHint_eq⟩

/-- The executor changes to a thread inside the program, or to nobody. -/
theorem withExecutor (h : m.Sound) {u : ThreadId} (hu : u ≠ .nobody → m.table.Inside u)
    (log : Array Log.Entry) : { m with executor := u, log : Ledger C σ }.Sound :=
  ⟨h.balanced, hu, h.runnerHint_eq, h.armedHint_eq⟩

/-- A thread that enters takes no role, and is the runner only if nobody was captured. -/
theorem entered (h : m.Sound) (p : Scheduler C σ) (c : C)
    (hs : m.table.state? tid = some .uncaptured) : (m.entered p tid c).Sound where
  balanced := entered_balanced h.balanced p c hs
  executor_inside he := by
    refine (h.executor_inside he).save.mark (.inr ?_)
    rintro rfl
    exact Table.Outside.not_inside hs (h.executor_inside he)
  runnerHint_eq := by simp only [Ledger.entered, joined, Ledger.withSaved, h.runnerHint_eq]
  armedHint_eq := h.armedHint_eq

/-- Replacing the runner keeps an executor who is another thread; its own role it must have lost. -/
theorem replaced (h : m.Sound) (hr : m.runner ≠ .nobody) (hn : m.table.state? next = some .idle)
    (c : C) (s : σ) {u : ThreadId} (hu : u ≠ .nobody → u = m.executor ∧ u ≠ m.runner) :
    { m.replaced next c s with executor := u : Ledger C σ }.Sound where
  balanced := replaced_balanced h.balanced hr hn c s
  executor_inside he := by
    obtain ⟨rfl, hne⟩ := hu he
    exact ((h.executor_inside he).save.mark (.inr hne)).mark (.inl (by decide))
  runnerHint_eq := rfl
  armedHint_eq := h.armedHint_eq

/-- A switch goes from the runner to an idle thread. -/
theorem switched (h : m.Sound) (hr : m.runner ≠ .nobody) (hn : m.table.state? next = some .idle)
    (c : C) (log : Array Log.Entry) : (m.switched next c log).Sound where
  balanced := switched_balanced h.balanced hr hn c log
  executor_inside he :=
    ((h.executor_inside he).save.mark (.inl (left_ne_uncaptured m))).mark (.inl (by decide))
  runnerHint_eq := rfl
  armedHint_eq := by
    change (if m.armed then false else m.armedHint) = false
    rw [h.armedHint_eq]
    cases m.armed <;> rfl

/-- When the last running thread exits, there is no runner and no executor. -/
theorem vacated (h : m.Sound) (hs : m.table.state? tid = some .running) (hn : m.captured = 1) :
    (m.vacated tid).Sound where
  balanced := h.balanced.markLast hs hn
  executor_inside he := absurd rfl he
  runnerHint_eq := rfl
  armedHint_eq := h.armedHint_eq

/-- An idle thread can be blocked as long as it is not the last one captured. -/
theorem benched (h : m.Sound) (hs : m.table.state? tid = some .idle) (hn : 1 < m.captured)
    (log : Array Log.Entry) : (m.benched tid log).Sound where
  balanced := h.balanced.markOther hs (by decide) (by decide) (h.balanced.saved tid _ hs (by decide))
    (Nat.sub_add_cancel (Nat.le_of_lt hn)) (fun h0 => absurd h0 (Nat.sub_ne_zero_of_lt hn))
  executor_inside he := (h.executor_inside he).mark (.inl (by decide))
  runnerHint_eq := h.runnerHint_eq
  armedHint_eq := h.armedHint_eq

/-- A blocked thread is idle after it has been unblocked, and has a saved context. -/
theorem revived (h : m.Sound) (hs : m.table.state? tid = some .blocked) (log : Array Log.Entry) :
    (m.revived tid log).Sound where
  balanced := h.balanced.markOther hs (by decide) (by decide) (h.balanced.saved tid _ hs (by decide))
    rfl (fun h0 => absurd h0 (Nat.succ_ne_zero _))
  executor_inside he := (h.executor_inside he).mark (.inl (by decide))
  runnerHint_eq := h.runnerHint_eq
  armedHint_eq := h.armedHint_eq

end Ledger.Sound

namespace Arbiter

open Critical

variable {C σ α : Type} {arb : Arbiter C σ} {m : Ledger C σ} {tid : ThreadId} {c : C}

/-! ## The ends of each section -/

theorem Settles.sound [Context C] {r : EStateM.Result Fault (Ledger C σ) (Arrival C)} (h : m.Sound)
    (htid : m.table.Inside tid) (hfirst : tid = m.runner → m.captured = 1)
    (hr : Settles arb tid m r) : (left r).Sound := by
  cases hr with
  | astray => exact h
  | unowned => exact h
  | refused => exact (h.withSaved _ _).withRest _ _ _ _ _
  | @paid d d' x next s l ho he hn hr hd ha hnext hx =>
    have hne : tid ≠ m.runner := fun e => by
      rw [hfirst e] at hn
      nomatch hn
    have hrep := h.replaced hr hnext d' s (u := .nobody) (fun hne => absurd rfl hne)
    refine ((hrep.withRest _ _ _ _ _).withExecutor (fun _ => ?_) _).withSaved _ _
    exact (htid.save.mark (.inr hne)).mark (.inl (by decide))
  | leaderless => exact h.withExecutor (fun _ => htid) _
  | took => exact (h.withExecutor (fun _ => htid) _).withSaved _ _
  | waits => exact h

theorem Arrives.sound [Context C] {r : EStateM.Result Fault (Ledger C σ) (Arrival C)} (h : m.Sound)
    (hr : Arrives arb tid c m r) : (left r).Sound := by
  cases hr with
  | unknown => exact h
  | inside => exact h.withSaved _ _
  | astray => exact h.withSaved _ _
  | returned => exact (h.withRest _ _ _ _ _).withSaved _ _
  | joined hs hr =>
    exact hr.sound (h.entered _ _ hs) (Ledger.inside_entered_self hs)
      (Ledger.captured_entered_of_runner h.balanced hs)

theorem Looks.sound [Context C] {r : EStateM.Result Fault (Ledger C σ) (Arrival C)} (h : m.Sound)
    (hr : Looks arb tid m r) : (left r).Sound := by
  cases hr with
  | unknown => exact h
  | unsaved => exact h.withRest _ _ _ _ _
  | released => exact (h.withRest _ _ _ _ _).withSaved _ _
  | leaderless hs hne => exact h.withExecutor (fun _ => Table.inside_of_state hs hne) _
  | took hs hne =>
    exact (h.withExecutor (fun _ => Table.inside_of_state hs hne) _).withSaved _ _
  | waits => exact h.withRest _ _ _ _ _

theorem Departs.sound [Context C] {r : EStateM.Result Fault (Ledger C σ) (Resume C)} (h : m.Sound)
    (hr : Departs arb tid c m r) : (left r).Sound := by
  cases hr with
  | foreign => exact h
  | leaderless => exact h
  | lone => exact h.withSaved _ _
  | refused => exact (h.withSaved _ _).withRest _ _ _ _ _
  | @shipped d x next s log he hr hne hn ha hnext hx =>
    have hrep := h.replaced hr hnext d s (u := m.executor) (fun _ => ⟨rfl, he ▸ hne.symm⟩)
    exact (hrep.withRest _ _ _ _ _).withSaved _ _
  | @handedOver d next s log he hr htid hn ha hnext =>
    have hrep := h.replaced (hr ▸ htid) hnext d s (u := .nobody) (fun hne => absurd rfl hne)
    exact (hrep.withRest _ _ _ _ _).withSaved _ _
  | owesAlready => exact h.withSaved _ _
  | owed => exact (h.withRest _ _ _ _ _).withSaved _ _

theorem Switches.sound [Context C] {r : EStateM.Result Fault (Ledger C σ) (Resume C)} (h : m.Sound)
    (hr : Switches arb tid c m r) : (left r).Sound := by
  cases hr with
  | refused => exact h
  | leaderless => exact h
  | switched hcheck hr hx =>
    obtain ⟨-, -, -, hidle⟩ := of_checkSwitch hcheck
    exact (h.switched hr hidle _ _).withSaved _ _

theorem Starts.sound [Context C] {r : EStateM.Result Fault (Ledger C σ) C} (h : m.Sound)
    (hr : Starts arb tid c m r) : (left r).Sound := by
  cases hr with
  | unknown => exact h
  | astray => exact h.withRest _ _ _ _ _
  | started => exact h.withRest _ _ _ _ _

theorem Finishes.sound {r : EStateM.Result Fault (Ledger C σ) Unit} (h : m.Sound)
    (hr : Finishes arb tid m r) : (left r).Sound := by
  cases hr with
  | unknown => exact h.withRest _ _ _ _ _
  | refused => exact h.withRest _ _ _ _ _
  | outside => exact h.withRest _ _ _ _ _
  | last hs hn he => exact (h.vacated hs hn).withRest _ _ _ _ _

theorem Blocks.sound {r : EStateM.Result Fault (Ledger C σ) Unit} (h : m.Sound)
    (hr : Blocks tid m r) : (left r).Sound := by
  cases hr with
  | unknown => exact h
  | refused => exact h
  | last => exact h
  | blocked hs hn => exact h.benched hs hn _

theorem Unblocks.sound {r : EStateM.Result Fault (Ledger C σ) Unit} (h : m.Sound)
    (hr : Unblocks tid m r) : (left r).Sound := by
  cases hr with
  | unknown => exact h
  | refused => exact h
  | unblocked hs => exact h.revived hs _

theorem Edits.sound {r : EStateM.Result Fault (Ledger C σ) α} (h : m.Sound) (hr : Edits tid m r) :
    (left r).Sound := by
  cases hr with
  | refused => exact h
  | edited => exact h.withSaved _ _

theorem sound_armBlock (h : m.Sound) : (left (armBlock m)).Sound := by
  rw [armBlock_apply]
  split
  · exact h
  · exact ⟨h.balanced, h.executor_inside, h.runnerHint_eq, rfl⟩

theorem sound_planUnit (u : CodeUnit) (h : m.Sound) : (left (arb.planUnit u m)).Sound := by
  obtain ⟨e, hp⟩ | ⟨p, log, hp⟩ := arb.planUnit_apply u m
  · rw [hp]
    exact h.withRest _ _ _ _ _
  · rw [hp]
    exact h.withRest _ _ _ _ _

/-- **Every call keeps a ledger sound**, whether it succeeds or fails. -/
theorem sound_perform [Context C] (arb : Arbiter C σ) (h : m.Sound) (call : Call C) :
    (left (arb.perform call m)).Sound := by
  cases call with
  | start tid c => exact left_answer Ledger.Sound ((arb.startThread_outcome tid c m).sound h)
  | finish tid => exact left_answer Ledger.Sound ((arb.endThread_outcome tid m).sound h)
  | arrive tid c => exact left_answer Ledger.Sound ((arrive_outcome h.balanced).sound h)
  | depart tid c => exact left_answer Ledger.Sound ((depart_outcome h.balanced).sound h)
  | switch tid c => exact left_answer Ledger.Sound ((switch_outcome h.balanced).sound h)
  | plan u => exact left_answer Ledger.Sound (sound_planUnit u h)
  | armBlock => exact left_answer Ledger.Sound (sound_armBlock h)
  | block tid => exact left_answer Ledger.Sound ((arb.block_outcome tid m).sound h)
  | unblock tid => exact left_answer Ledger.Sound ((arb.unblock_outcome tid m).sound h)
  | readRegister tid r => exact left_answer Ledger.Sound ((editContext_outcome tid _ m).sound h)
  | writeRegister tid r v => exact left_answer Ledger.Sound ((editContext_outcome tid _ m).sound h)
  | copyContext tid => exact left_answer Ledger.Sound ((editContext_outcome tid _ m).sound h)
  | replaceContext tid c => exact left_answer Ledger.Sound ((editContext_outcome tid _ m).sound h)

end Arbiter

/-! ## Runs -/

/-- **Anything that can happen to a ledger** while its lock is taken once. -/
inductive Event (C σ : Type) where
  | call (c : Call C)
  /-- An arrival looks again. -/
  | lookAgain (tid : ThreadId)
  /-- The permit of a wake slot is taken. -/
  | takePermit (tid : ThreadId)
  /-- The saved context of a thread that does not run is edited. -/
  | edit (tid : ThreadId) (f : C → C)
  /-- The scheduler changes its mind. -/
  | think (s : σ)

namespace Arbiter

open Critical

variable {C σ : Type} [Context C] {m : Ledger C σ}

/-- The ledger after an event, which may have succeeded or failed. -/
def react (arb : Arbiter C σ) (m : Ledger C σ) : Event C σ → Ledger C σ
  | .call c => left (arb.perform c m)
  | .lookAgain tid => left (arb.lookAgain tid m)
  | .takePermit tid => left (takePermit tid m)
  | .edit tid f => left (editContext tid (fun c => ((), f c)) m)
  | .think s => { m with schedulerState := s }

/-- The ledger after the events of a list, one after another. -/
def follow (arb : Arbiter C σ) (m : Ledger C σ) (es : List (Event C σ)) : Ledger C σ :=
  es.foldl arb.react m

/-- **An event keeps the ledger sound.** -/
theorem sound_react (arb : Arbiter C σ) (h : m.Sound) (e : Event C σ) : (arb.react m e).Sound := by
  cases e with
  | call c => exact arb.sound_perform h c
  | lookAgain tid => exact (lookAgain_outcome h.balanced).sound h
  | takePermit tid => exact h.withRest _ _ _ _ _
  | edit tid f => exact (editContext_outcome tid _ m).sound h
  | think s => exact h.withRest _ _ _ _ _

/-- What every event preserves of a sound ledger is there after every run. -/
theorem of_follow {arb : Arbiter C σ} {P : Ledger C σ → Prop}
    (hstep : ∀ m e, m.Sound → P m → P (arb.react m e)) (es : List (Event C σ)) (hs : m.Sound)
    (h : P m) : P (arb.follow m es) := by
  induction es generalizing m with
  | nil => exact h
  | cons e es ih => exact ih (arb.sound_react hs e) (hstep m e hs h)

/-- **So do any events, one after another.** -/
theorem sound_foldl (arb : Arbiter C σ) (es : List (Event C σ)) (h : m.Sound) :
    (arb.follow m es).Sound := of_follow (fun _ e hs _ => arb.sound_react hs e) es h h

variable {scheduler : Scheduler C σ} {initial : σ} {config : Config} {setup setup' : Setup C σ}
  {arb : Arbiter C σ}

/-- **Whatever happens to a new arbiter, its ledger stays sound.** -/
theorem sound_follow (h : create scheduler initial config setup = .ok (arb, m) setup')
    (es : List (Event C σ)) : (arb.follow m es).Sound :=
  arb.sound_foldl es (sound_of_create h)

/-- Two threads arrive at a rotation, one of them twice, and the second one is taken out of the pool. -/
theorem sound_follow_rotation :
    (twoSlots.follow (.fresh 2 {}) [.call (.arrive ⟨0⟩ (.start ⟨0⟩)), .call (.arrive ⟨1⟩ (.start ⟨1⟩)),
      .call (.arrive ⟨0⟩ (.start ⟨0⟩)), .call (.block ⟨1⟩)]).Sound := by
  obtain ⟨setup, h⟩ := create_twoSlots
  exact sound_follow h _

end Arbiter

end SoleRunner
