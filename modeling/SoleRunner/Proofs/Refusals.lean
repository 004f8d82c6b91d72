import SoleRunner.Proofs.AnyRun

/-!
# Proofs/Refusals — what a call that fails leaves as it was

A section writes to the ledger before its last check, and what it wrote stays when the check fails.  On a
ledger that can be reached, though, the checks that come late cannot fail, and a call that is not an
arrival leaves all that the arbiter keeps about the threads as it was (`Ledger.Untouched`), but for the
context of a runner whose departure fails.  The scheduler may have been called, and something may have
been counted and logged.
-/

namespace SoleRunner

namespace Ledger

variable {C σ : Type} {m m' : Ledger C σ} {tid : ThreadId} {c : C} {s : σ} {log : Array Log.Entry}

/-- **The two ledgers say the same about who is where.** -/
structure SameBooks (m m' : Ledger C σ) : Prop where
  state_eq : ∀ u, m'.table.state? u = m.table.state? u
  runner_eq : m'.runner = m.runner
  executor_eq : m'.executor = m.executor
  captured_eq : m'.captured = m.captured
  owes_eq : m'.owesUncapture = m.owesUncapture
  armed_eq : m'.armed = m.armed

/-- **Nothing about the threads has changed**, but for saved contexts perhaps. -/
structure Untouched (m m' : Ledger C σ) : Prop extends SameBooks m m' where
  runnerHint_eq : m'.runnerHint = m.runnerHint
  armedHint_eq : m'.armedHint = m.armedHint
  permits_eq : m'.permits = m.permits

/-- Saved contexts are the exception. -/
theorem untouched_withSaved (m : Ledger C σ) (tid : ThreadId) (c : C) :
    m.Untouched (m.withSaved tid c) :=
  ⟨⟨fun _ => Table.state?_save, rfl, rfl, rfl, rfl, rfl⟩, rfl, rfl, rfl⟩

theorem Untouched.refl (m : Ledger C σ) : m.Untouched m :=
  ⟨⟨fun _ => rfl, rfl, rfl, rfl, rfl, rfl⟩, rfl, rfl, rfl⟩

/-- What is counted, logged and told the scheduler is not about the threads. -/
theorem Untouched.withRest (h : m.Untouched m') (stats : Stats) (s : σ) (log : Array Log.Entry) :
    m.Untouched { m' with stats, schedulerState := s, log } :=
  ⟨⟨h.state_eq, h.runner_eq, h.executor_eq, h.captured_eq, h.owes_eq, h.armed_eq⟩, h.runnerHint_eq,
    h.armedHint_eq, h.permits_eq⟩

end Ledger

namespace Arbiter

open Critical

variable {C σ α : Type} {arb : Arbiter C σ} {m k : Ledger C σ} {tid : ThreadId} {c : C} {e : Fault}

/-! ## The ends of each section that fails -/

/-- A departure that fails may have changed the context of the runner. -/
theorem Departs.untouched [Context C] (h : Departs arb tid c m (.error e k)) :
    m.Untouched k ∧ ∀ u, u ≠ m.runner → k.table.saved? u = m.table.saved? u := by
  cases h with
  | foreign | leaderless => exact ⟨.refl m, fun _ _ => rfl⟩
  | lone => exact ⟨m.untouched_withSaved _ _, fun _ hu => Table.saved?_save_of_ne hu⟩
  | refused =>
    exact ⟨(m.untouched_withSaved _ _).withRest _ _ _, fun _ hu => Table.saved?_save_of_ne hu⟩
  | owesAlready _ hr =>
    exact ⟨m.untouched_withSaved _ _, fun _ hu => Table.saved?_save_of_ne (hr ▸ hu)⟩

/-- A switch that fails has written nothing. -/
theorem Switches.untouched [Context C] (h : Switches arb tid c m (.error e k)) :
    m.Untouched k ∧ k.table = m.table := by
  cases h with
  | refused | leaderless => exact ⟨.refl m, rfl⟩

/-- A start that fails has been told to the scheduler, and counted. -/
theorem Starts.untouched [Context C] (h : Starts arb tid c m (.error e k)) :
    m.Untouched k ∧ k.table = m.table := by
  cases h with
  | unknown => exact ⟨.refl m, rfl⟩
  | astray => exact ⟨(Ledger.Untouched.refl m).withRest _ _ _, rfl⟩

/-- An exit that fails may have been logged. -/
theorem Finishes.untouched (h : Finishes arb tid m (.error e k)) :
    m.Untouched k ∧ k.table = m.table := by
  cases h with
  | unknown | refused => exact ⟨(Ledger.Untouched.refl m).withRest _ _ _, rfl⟩

/-- A request to block that is refused has written nothing. -/
theorem Blocks.untouched (h : Blocks tid m (.error e k)) : m.Untouched k ∧ k.table = m.table := by
  cases h with
  | unknown | refused | last => exact ⟨.refl m, rfl⟩

/-- A request to unblock that is refused has written nothing. -/
theorem Unblocks.untouched (h : Unblocks tid m (.error e k)) : m.Untouched k ∧ k.table = m.table := by
  cases h with
  | unknown | refused => exact ⟨.refl m, rfl⟩

/-- An edit that is refused has written nothing. -/
theorem untouched_editContext {f : C → α × C} (h : editContext tid f m = .error e k) :
    m.Untouched k ∧ k.table = m.table := by
  have hr := editContext_outcome tid f m
  rw [h] at hr
  cases hr
  exact ⟨.refl m, rfl⟩

theorem untouched_armBlock (h : armBlock m = .error e k) : m.Untouched k ∧ k.table = m.table := by
  rw [armBlock_apply] at h
  split at h
  · cases h
    exact ⟨.refl m, rfl⟩
  · nomatch h

/-- A plan that is refused has been asked for, and counted. -/
theorem untouched_planUnit {u : CodeUnit} (h : arb.planUnit u m = .error e k) :
    m.Untouched k ∧ k.table = m.table := by
  obtain ⟨e', herr⟩ | ⟨plan, log, hok⟩ := arb.planUnit_apply u m
  · rw [herr] at h
    cases h
    exact ⟨(Ledger.Untouched.refl m).withRest _ _ _, rfl⟩
  · rw [hok] at h
    nomatch h

/-! ## Any call but an arrival -/

variable [Context C] {call : Call C}

/-- A call that is neither an arrival nor a departure leaves the table alone if it fails. -/
theorem untouched_perform (hb : m.table.Balanced m.captured m.runner)
    (harrive : ∀ tid c, call ≠ .arrive tid c) (hdepart : ∀ tid c, call ≠ .depart tid c)
    (h : arb.perform call m = .error e k) : m.Untouched k ∧ k.table = m.table := by
  cases call with
  | start tid c => exact Starts.untouched (of_answer_error h ▸ arb.startThread_outcome tid c m)
  | finish tid => exact Finishes.untouched (of_answer_error h ▸ arb.endThread_outcome tid m)
  | arrive tid c => exact absurd rfl (harrive tid c)
  | depart tid c => exact absurd rfl (hdepart tid c)
  | switch tid c => exact Switches.untouched (of_answer_error h ▸ switch_outcome hb)
  | plan u => exact untouched_planUnit (of_answer_error h)
  | armBlock => exact untouched_armBlock (of_answer_error h)
  | block tid => exact Blocks.untouched (of_answer_error h ▸ arb.block_outcome tid m)
  | unblock tid => exact Unblocks.untouched (of_answer_error h ▸ arb.unblock_outcome tid m)
  | readRegister tid r => exact untouched_editContext (of_answer_error h)
  | writeRegister tid r v => exact untouched_editContext (of_answer_error h)
  | copyContext tid => exact untouched_editContext (of_answer_error h)
  | replaceContext tid c => exact untouched_editContext (of_answer_error h)

/-- **A call that fails, and is not an arrival, leaves everything about the threads as it was**, but for
the context of the runner whose departure failed. -/
theorem untouched_of_error {scheduler : Scheduler C σ} {initial : σ} {config : Config}
    {setup setup' : Setup C σ} {es : List (Event C σ)} {n : Ledger C σ}
    (h : create scheduler initial config setup = .ok (arb, m) setup') (hn : arb.follow m es = n)
    (hcall : ∀ tid c, call ≠ .arrive tid c) (herr : arb.perform call n = .error e k) :
    n.Untouched k ∧
      ∀ u, ((∃ tid c, call = .depart tid c) → u ≠ n.runner) → k.table.saved? u = n.table.saved? u := by
  have hb := (hn ▸ arb.sound_foldl es (sound_of_create h)).balanced
  by_cases hdepart : ∃ tid c, call = .depart tid c
  · obtain ⟨tid, c, rfl⟩ := hdepart
    have hr : Departs arb tid c n (.error e k) := of_answer_error herr ▸ depart_outcome hb
    obtain ⟨hkept, hsaved⟩ := hr.untouched
    exact ⟨hkept, fun u hu => hsaved u (hu ⟨tid, c, rfl⟩)⟩
  · obtain ⟨hkept, htable⟩ := untouched_perform hb hcall (fun tid c he => hdepart ⟨tid, c, he⟩) herr
    exact ⟨hkept, fun u _ => by rw [htable]⟩

/-- Two threads arrive, and the scheduler will choose a thread that does not exist. -/
def strayed : List (Event Cursor Rotation) :=
  [.call (.arrive ⟨0⟩ (.start ⟨0⟩)), .call (.arrive ⟨1⟩ (.start ⟨1⟩)), .think ⟨[⟨9⟩]⟩]

theorem untouched_strayed : ∃ k,
    twoSlots.perform (.depart ⟨0⟩ (.start ⟨0⟩)) (twoSlots.follow (.fresh 2 {}) strayed) =
      .error (.violation (.outOfRange ⟨9⟩ 2)) k ∧
    (twoSlots.follow (.fresh 2 {}) strayed).Untouched k := by
  obtain ⟨setup, h⟩ := create_twoSlots
  have hcall : ∀ tid c, (.depart ⟨0⟩ (.start ⟨0⟩) : Call Cursor) ≠ .arrive tid c := nofun
  exact ⟨_, rfl, (untouched_of_error h rfl hcall rfl).1⟩

end Arbiter

end SoleRunner
