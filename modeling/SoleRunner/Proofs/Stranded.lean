import SoleRunner.Proofs.Listing
import SoleRunner.Proofs.Stationed

/-!
# Proofs/Stranded — captured threads that nobody runs

The audit fails in one situation only: threads are captured, and there is no runner among them
(`Ledger.Stranded`).  An arbiter gets there if the last captured thread exits while others are blocked,
and one of these is then put back into the pool: no newcomer after it can take the executor role.  The
audit of a crew fails exactly from the first such request on (`Crew.audit_ok_iff_of_run`).
-/

namespace SoleRunner

namespace Table

variable {C : Type} {t : Table C} {n : Nat} {runner : ThreadId}

/-! ## Listing the running threads -/

/-- The runner of a balanced table is all that runs. -/
theorem threadsIn_running_of_runner (h : t.Balanced n runner) (hr : runner ≠ .nobody) :
    t.threadsIn .running = [runner] := by
  refine (threadsIn_eq_singleton_iff h.capacity_le).mpr (Set.ext fun tid => ?_)
  rw [mem_inState, h.running_iff, Set.mem_singleton_iff]
  exact and_iff_left hr

/-- Without a runner nobody runs. -/
theorem threadsIn_running_without_runner (h : t.Balanced n .nobody) : t.threadsIn .running = [] := by
  refine (threadsIn_eq_nil_iff h.capacity_le).mpr (Set.eq_empty_of_forall_notMem fun tid hrun => ?_)
  exact ((h.running_iff tid).mp hrun).2 rfl

end Table

namespace Ledger

variable {C σ : Type} {m : Ledger C σ}

/-- **Threads are captured, and there is no runner among them.** -/
def Stranded (m : Ledger C σ) : Prop := m.captured ≠ 0 ∧ m.runner = .nobody

theorem stranded_congr {m' : Ledger C σ} (hn : m'.captured = 0 ↔ m.captured = 0)
    (hr : m'.runner = m.runner) : m'.Stranded ↔ m.Stranded := by
  rw [Stranded, Stranded, hr]
  exact and_congr_left fun _ => not_congr hn

theorem not_stranded_of_runner (hr : m.runner ≠ .nobody) : ¬ m.Stranded := fun h => hr h.2

/-! ## The audit -/

/-- **The audit passes** a sound ledger that is not stranded. -/
theorem audit_of_not_stranded (hs : m.Sound) (h : ¬ m.Stranded) : m.audit = .ok () := by
  rw [audit, if_neg (not_not_intro hs.balanced.captured_eq)]
  by_cases h0 : m.captured = 0
  · have hb := hs.balanced
    rw [hs.balanced.runner_eq_nobody h0] at hb
    rw [if_pos h0, if_pos (Table.threadsIn_running_without_runner hb)]
  · have hr : m.runner ≠ .nobody := fun hr => h ⟨h0, hr⟩
    rw [if_neg h0, if_pos (Table.threadsIn_running_of_runner hs.balanced hr)]

/-- **The audit fails** a stranded one. -/
theorem audit_of_stranded (hs : m.Sound) (h : m.Stranded) :
    m.audit = .error (.broken .runnerIsTheOneRunning) := by
  have hb := hs.balanced
  rw [h.2] at hb
  rw [audit, if_neg (not_not_intro hs.balanced.captured_eq), if_neg h.1,
    Table.threadsIn_running_without_runner hb, if_neg (List.cons_ne_nil _ _).symm]

end Ledger

namespace Arbiter

open Critical

variable {C σ : Type} {arb : Arbiter C σ} {m : Ledger C σ} {tid : ThreadId}

/-- **A request to block is refused for want of another runnable thread** exactly if the only captured
thread is asked for and does not run. -/
theorem block_lastRunnable_iff (arb : Arbiter C σ) (hs : m.Sound) :
    arb.block tid m = .error (.lastRunnable tid) m ↔
      m.table.state? tid = some .idle ∧ m.captured = 1 ∧ m.Stranded := by
  have ho := arb.block_outcome tid m
  constructor
  · intro h
    rw [h] at ho
    cases ho with
    | last hidle hn =>
      have hpos := hs.balanced.captured_pos hidle rfl
      have hr : m.runner = .nobody := Classical.byContradiction fun hr =>
        Nat.not_lt.mpr hn (hs.balanced.one_lt_captured hidle hr)
      exact ⟨hidle, by omega, by omega, hr⟩
  · rintro ⟨hidle, hn, -⟩
    generalize arb.block tid m = r at ho
    cases ho with
    | unknown hu => rw [hidle] at hu; nomatch hu
    | refused hu hne => rw [hidle] at hu; exact absurd (Option.some.inj hu).symm hne
    | last => rfl
    | blocked _ hlt => omega

/-- In no other case is a request to block refused so. -/
theorem block_ne_lastRunnable (arb : Arbiter C σ) (hs : m.Sound) (h : ¬ m.Stranded) (u : ThreadId)
    (n : Ledger C σ) : arb.block tid m ≠ .error (.lastRunnable u) n := by
  intro he
  have ho := arb.block_outcome tid m
  rw [he] at ho
  cases ho with
  | last hidle hn =>
    exact h ((arb.block_lastRunnable_iff hs).mp he).2.2

/-! ## Requests -/

theorem Blocks.stranded_iff {r : EStateM.Result Fault (Ledger C σ) Unit} (hr : Blocks tid m r) :
    (left r).Stranded ↔ m.Stranded := by
  cases hr with
  | unknown => exact .rfl
  | refused => exact .rfl
  | last => exact .rfl
  | blocked hs hn => exact Ledger.stranded_congr (by simp only [left_ok, Ledger.benched]; omega) rfl

theorem Unblocks.stranded_iff {r : EStateM.Result Fault (Ledger C σ) Unit} (hs : m.Sound)
    (hr : Unblocks tid m r) :
    (left r).Stranded ↔ m.Stranded ∨ m.table.state? tid = some .blocked ∧ m.captured = 0 := by
  cases hr with
  | unknown hu => simp [hu]
  | refused hu hne => simp [hu, hne]
  | unblocked hu =>
    by_cases h0 : m.captured = 0
    · exact iff_of_true ⟨Nat.succ_ne_zero _, hs.balanced.runner_eq_nobody h0⟩ (.inr ⟨hu, h0⟩)
    · refine Iff.trans ?_ (or_iff_left fun h => h0 h.2).symm
      exact Ledger.stranded_congr (iff_of_false (Nat.succ_ne_zero _) h0) rfl

theorem Edits.stranded_iff {α : Type} {r : EStateM.Result Fault (Ledger C σ) α} (hr : Edits tid m r) :
    (left r).Stranded ↔ m.Stranded := by
  cases hr with
  | refused => exact .rfl
  | edited => exact .rfl

theorem stranded_armBlock_iff : (left (armBlock m)).Stranded ↔ m.Stranded := by
  rw [armBlock_apply]
  split <;> exact .rfl

theorem stranded_planUnit_iff {u : CodeUnit} : (left (arb.planUnit u m)).Stranded ↔ m.Stranded := by
  obtain ⟨e, h⟩ | ⟨p, log, h⟩ := arb.planUnit_apply u m <;> rw [h] <;> exact .rfl

end Arbiter

namespace Crew

open Critical Arbiter

variable {C σ : Type} [Context C] {arb : Arbiter C σ} {w w' : Crew C σ} {m : Ledger C σ}
  {tid : ThreadId} {c : C} {mv : Move C σ} {mvs : List (Move C σ)}

/-! ## One move -/

/-- The move puts a blocked thread back into the pool while nobody is captured. -/
def Revives (w : Crew C σ) (mv : Move C σ) : Prop :=
  ∃ tid, mv = .request (.unblock tid) ∧ w.ledger.table.state? tid = some .blocked ∧
    w.ledger.captured = 0

/-- No arrival succeeds in a stranded crew, and none strands it. -/
theorem not_stranded_of_arrives (hw : w.Stationed) {a : Arrival C}
    (ho : Arrives arb tid c w.ledger (.ok a m)) : ¬ m.Stranded ∧ ¬ w.ledger.Stranded := by
  cases ho with
  | returned hrun he hn =>
    have hr := hw.sound.balanced.runner_ne_nobody_of_running hrun
    exact ⟨Ledger.not_stranded_of_runner hr, Ledger.not_stranded_of_runner hr⟩
  | joined hu hset =>
    have hstranded (h : w.ledger.Stranded) :
        (w.ledger.entered arb.scheduler tid c).runner = .nobody :=
      (Ledger.entered_runner_of_later h.1).trans h.2
    cases hset with
    | paid howes he hn hr hd ha hnext hx =>
      have hb := Ledger.entered_balanced hw.sound.balanced arb.scheduler c hu
      exact ⟨Ledger.not_stranded_of_runner (hb.ne_nobody hnext), fun h => hr (hstranded h)⟩
    | took howes he hr hx =>
      exact ⟨Ledger.not_stranded_of_runner hr, fun h => hr (hstranded h)⟩
    | waits howes he =>
      have hr := hw.executor_runs he
      have hlater : w.ledger.captured ≠ 0 :=
        Nat.ne_of_gt (hw.sound.balanced.captured_pos_of_runner hr)
      have hrunner : (w.ledger.entered arb.scheduler tid c).runner ≠ .nobody := by
        rwa [Ledger.entered_runner_of_later hlater]
      exact ⟨Ledger.not_stranded_of_runner hrunner, Ledger.not_stranded_of_runner hr⟩

theorem not_stranded_of_departs (hw : w.Stationed) {r : Resume C}
    (ho : Departs arb tid c w.ledger (.ok r m)) : ¬ m.Stranded ∧ ¬ w.ledger.Stranded := by
  cases ho with
  | shipped he hr hne hn ha hnext hx =>
    exact ⟨Ledger.not_stranded_of_runner (hw.sound.balanced.ne_nobody hnext),
      Ledger.not_stranded_of_runner hr⟩
  | handedOver he hr htid hn ha hnext =>
    exact ⟨Ledger.not_stranded_of_runner (hw.sound.balanced.ne_nobody hnext),
      Ledger.not_stranded_of_runner (hr ▸ htid)⟩
  | owed he hr htid hn ho =>
    exact ⟨Ledger.not_stranded_of_runner (hr ▸ htid), Ledger.not_stranded_of_runner (hr ▸ htid)⟩

/-- Of all requests, only reviving strands a crew. -/
theorem stranded_of_request (hw : w.Stationed) {call : Call C} (hc : call.isHandler = false) :
    (left (arb.perform call w.ledger)).Stranded ↔
      w.ledger.Stranded ∨ w.Revives (.request call : Move C σ) := by
  have hkept {β : Type} {x : Critical C σ β} {f : β → Reply C}
      (h : (left (x w.ledger)).Stranded ↔ w.ledger.Stranded)
      (hr : ¬ w.Revives (.request call : Move C σ)) :
      (left ((x >>= fun a => pure (f a)) w.ledger)).Stranded ↔
        w.ledger.Stranded ∨ w.Revives (.request call : Move C σ) :=
    left_answer (fun n => n.Stranded ↔ _) (h.trans (or_iff_left hr).symm)
  cases call with
  | start => nomatch hc
  | finish => nomatch hc
  | arrive => nomatch hc
  | depart => nomatch hc
  | switch => nomatch hc
  | plan => nomatch hc
  | armBlock => exact hkept stranded_armBlock_iff nofun
  | block tid => exact hkept (arb.block_outcome tid w.ledger).stranded_iff nofun
  | unblock tid =>
    have hr : w.Revives (.request (.unblock tid) : Move C σ) ↔
        w.ledger.table.state? tid = some .blocked ∧ w.ledger.captured = 0 := by
      constructor
      · rintro ⟨_, ⟨⟩, h⟩
        exact h
      · exact fun h => ⟨tid, rfl, h⟩
    rw [hr]
    exact left_answer (fun n => n.Stranded ↔ _)
      ((arb.unblock_outcome tid w.ledger).stranded_iff hw.sound)
  | readRegister tid r => exact hkept (editContext_outcome tid _ w.ledger).stranded_iff nofun
  | writeRegister tid r v => exact hkept (editContext_outcome tid _ w.ledger).stranded_iff nofun
  | copyContext tid => exact hkept (editContext_outcome tid _ w.ledger).stranded_iff nofun
  | replaceContext tid c => exact hkept (editContext_outcome tid _ w.ledger).stranded_iff nofun

/-- **A move strands a crew only by reviving, and no move helps a stranded one.** -/
theorem Moves.stranded_iff (hw : w.Stationed) (hm : Moves arb w mv w') :
    w'.ledger.Stranded ↔ w.ledger.Stranded ∨ w.Revives mv := by
  have hkept {n : Ledger C σ} (h : n.Stranded ↔ w.ledger.Stranded) (hr : ¬ w.Revives mv) :
      n.Stranded ↔ w.ledger.Stranded ∨ w.Revives mv := h.trans (or_iff_left hr).symm
  have hnot {n : Ledger C σ} (h : ¬ n.Stranded ∧ ¬ w.ledger.Stranded) (hr : ¬ w.Revives mv) :
      n.Stranded ↔ w.ledger.Stranded ∨ w.Revives mv := hkept (iff_of_false h.1 h.2) hr
  cases hm with
  | start hp ho =>
    have ho := ho ▸ arb.startThread_outcome _ _ w.ledger
    cases ho
    exact hkept .rfl nofun
  | arrive hp hg ho =>
    exact hnot (not_stranded_of_arrives hw (ho ▸ arrive_outcome hw.sound.balanced)) nofun
  | depart hp hg ho =>
    exact hnot (not_stranded_of_departs hw (ho ▸ depart_outcome hw.sound.balanced)) nofun
  | switch hp hg ho =>
    have ho : Switches arb _ _ w.ledger _ := ho ▸ switch_outcome hw.sound.balanced
    cases ho with
    | switched hcheck hr hx =>
      obtain ⟨-, -, -, hnext⟩ := of_checkSwitch hcheck
      have hn := hw.sound.balanced.ne_nobody hnext
      exact hnot ⟨Ledger.not_stranded_of_runner hn, Ledger.not_stranded_of_runner hr⟩ nofun
  | finish hp hg ho =>
    have ho := ho ▸ arb.endThread_outcome _ w.ledger
    cases ho with
    | outside => exact hkept .rfl nofun
    | last hrun hn he =>
      have hr := hw.sound.balanced.runner_ne_nobody_of_running hrun
      exact hnot ⟨fun h => h.1 rfl, Ledger.not_stranded_of_runner hr⟩ nofun
  | compute => exact hkept .rfl nofun
  | wake => exact hkept .rfl nofun
  | look hp ho =>
    have ho : Looks arb _ w.ledger _ := ho ▸ lookAgain_outcome hw.sound.balanced
    cases ho with
    | released => exact hkept .rfl nofun
    | took => exact hkept .rfl nofun
    | waits => exact hkept .rfl nofun
  | plan => exact hkept stranded_planUnit_iff nofun
  | request hc => exact stranded_of_request hw hc
  | edit => exact hkept (editContext_outcome _ _ w.ledger).stranded_iff nofun
  | think => exact hkept .rfl nofun

/-! ## Runs -/

/-- Some move of the run revives. -/
def RevivesIn (arb : Arbiter C σ) (w : Crew C σ) (mvs : List (Move C σ)) : Prop :=
  ∃ pre mv post v, mvs = pre ++ mv :: post ∧ w.run arb pre = some v ∧ v.Revives mv

theorem not_revivesIn_nil : ¬ w.RevivesIn arb [] := not_happensIn_nil

theorem revivesIn_cons_iff :
    w.RevivesIn arb (mv :: mvs) ↔ w.Revives mv ∨ ∃ v, w.next arb mv = some v ∧ v.RevivesIn arb mvs :=
  happensIn_cons_iff

/-- **A run ends stranded** exactly if it began so, or if a move of it revives. -/
theorem stranded_run_iff (hw : w.Stationed) (hrun : w.run arb mvs = some w') :
    w'.ledger.Stranded ↔ w.ledger.Stranded ∨ w.RevivesIn arb mvs := by
  induction mvs generalizing w with
  | nil =>
    cases hrun
    exact (or_iff_left not_revivesIn_nil).symm
  | cons mv mvs ih =>
    obtain ⟨v, hmv, hrest⟩ := of_run_cons hrun
    have hm := moves_of_next hmv
    have hsplit : (∃ u, w.next arb mv = some u ∧ u.RevivesIn arb mvs) ↔ v.RevivesIn arb mvs := by
      simp only [hmv, Option.some.injEq, exists_eq_left']
    rw [ih (hm.stationed hw) hrest, hm.stranded_iff hw, revivesIn_cons_iff, hsplit, or_assoc]

variable {scheduler : Scheduler C σ} {initial : σ} {config : Config} {setup setup' : Setup C σ}

/-- A new arbiter's crew is stranded by nothing else. -/
theorem stranded_iff_revivesIn (h : create scheduler initial config setup = .ok (arb, m) setup')
    (hrun : (new m).run arb mvs = some w) : w.ledger.Stranded ↔ (new m).RevivesIn arb mvs := by
  have hnew : ¬ (new m).ledger.Stranded := by
    obtain ⟨-, -, -, rfl⟩ := of_create_ok h
    exact fun hs => hs.1 rfl
  exact (stranded_run_iff (stationed_of_create h) hrun).trans (or_iff_right hnew)

/-- **When the audit of a crew fails.**  In every state that a crew of a new arbiter can reach, the
audit passes exactly if no blocked thread was put back into the pool while nobody was captured.  Until
that happens exactly the runner runs while anything is captured, and no request to block is refused for
want of another runnable thread; from then on no runner is found, and such a request is refused if it
asks for the only captured thread. -/
theorem audit_ok_iff_of_run (h : create scheduler initial config setup = .ok (arb, m) setup')
    (hrun : (new m).run arb mvs = some w) :
    (w.ledger.audit = .ok () ↔ ¬ (new m).RevivesIn arb mvs) ∧
    (¬ (new m).RevivesIn arb mvs →
      (w.ledger.captured ≠ 0 → w.ledger.table.threadsIn .running = [w.ledger.runner]) ∧
      ∀ tid u n, arb.block tid w.ledger ≠ .error (.lastRunnable u) n) ∧
    ((new m).RevivesIn arb mvs →
      w.ledger.audit = .error (.broken .runnerIsTheOneRunning) ∧
      ∀ tid, arb.block tid w.ledger = .error (.lastRunnable tid) w.ledger ↔
        w.ledger.table.state? tid = some .idle ∧ w.ledger.captured = 1) := by
  have hs : w.ledger.Sound := (stationed_of_run h hrun).sound
  rw [← stranded_iff_revivesIn h hrun]
  refine ⟨⟨fun hok hstr => ?_, Ledger.audit_of_not_stranded hs⟩, fun hstr => ⟨fun h0 => ?_, ?_⟩,
    fun hstr => ⟨Ledger.audit_of_stranded hs hstr, fun tid => ?_⟩⟩
  · rw [Ledger.audit_of_stranded hs hstr] at hok
    nomatch hok
  · exact Table.threadsIn_running_of_runner hs.balanced fun hr => hstr ⟨h0, hr⟩
  · exact fun tid => arb.block_ne_lastRunnable hs hstr
  · rw [arb.block_lastRunnable_iff hs]
    exact and_congr_right fun _ => and_iff_left hstr

/-- Two threads arrive, the second one is blocked, the first one exits from a system call, and the
second one is put back into the pool: the audit fails from here on, and blocking the second thread again
is refused. -/
theorem audit_fails_lastExit :
    ∃ w : Crew Cursor Rotation,
      (new (.fresh 2 {})).run twoSlots [.start ⟨0⟩ (.start ⟨0⟩), .arrive ⟨0⟩, .start ⟨1⟩ (.start ⟨1⟩),
        .arrive ⟨1⟩, .request (.block ⟨1⟩), .depart ⟨0⟩, .finish ⟨0⟩,
        .request (.unblock ⟨1⟩)] = some w ∧
      w.ledger.audit = .error (.broken .runnerIsTheOneRunning) ∧
      twoSlots.block ⟨1⟩ w.ledger = .error (.lastRunnable ⟨1⟩) w.ledger := by
  obtain ⟨setup, h⟩ := create_twoSlots
  obtain ⟨w, hrun, hrunner, hidle, hn⟩ : ∃ w : Crew Cursor Rotation,
      (new (.fresh 2 {})).run twoSlots [.start ⟨0⟩ (.start ⟨0⟩), .arrive ⟨0⟩, .start ⟨1⟩ (.start ⟨1⟩),
        .arrive ⟨1⟩, .request (.block ⟨1⟩), .depart ⟨0⟩, .finish ⟨0⟩,
        .request (.unblock ⟨1⟩)] = some w ∧
      w.ledger.runner = .nobody ∧ w.ledger.table.state? ⟨1⟩ = some .idle ∧ w.ledger.captured = 1 :=
    ⟨_, rfl, rfl, rfl, rfl⟩
  have hr := (stranded_iff_revivesIn h hrun).mp ⟨by rw [hn]; exact Nat.one_ne_zero, hrunner⟩
  obtain ⟨-, -, hfails⟩ := audit_ok_iff_of_run h hrun
  obtain ⟨haudit, hblock⟩ := hfails hr
  exact ⟨w, hrun, haudit, (hblock ⟨1⟩).mpr ⟨hidle, hn⟩⟩

end Crew

end SoleRunner
