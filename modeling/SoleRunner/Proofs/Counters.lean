import SoleRunner.Proofs.AnyRun

/-!
# Proofs/Counters — the counters of an arbiter balance

Nothing in the protocol reads the counters, so that nothing in it would notice one that is wrong.  What
they say is compared here with what the table shows: a ledger's `Surplus` is the difference, in the
arithmetic of counters that wrap.  Each change that a section is made of moves it by what the change does,
and what one of them adds another one takes away before the section is over, whether it succeeds or fails.
Only two things that no counter counts remain, the exits of running threads and the departures in which
the executor gives its role away.
-/

namespace SoleRunner

/-- **What the counters say beyond what the table shows.** -/
@[ext] structure Surplus where
  /-- Blocks that have not been undone, without the threads that are blocked. -/
  blocks : UInt64
  /-- Captures that have not been undone, without the threads inside the program. -/
  captures : UInt64
  /-- Uncaptures without the shipped and the delayed ones. -/
  uncaptures : UInt64

namespace Surplus

/-- The surplus once some running threads have exited, and some executors have given their role away. -/
def plus (s : Surplus) (exits handOvers : Nat) : Surplus where
  blocks := s.blocks
  captures := s.captures + exits.toUInt64
  uncaptures := s.uncaptures + handOvers.toUInt64

@[simp] theorem plus_zero (s : Surplus) : s.plus 0 0 = s :=
  Surplus.ext rfl (UInt64.add_zero _) (UInt64.add_zero _)

/-- Exits and given roles add up. -/
theorem plus_plus (s : Surplus) (exits handOvers exits' handOvers' : Nat) :
    (s.plus exits handOvers).plus exits' handOvers' =
      s.plus (exits + exits') (handOvers + handOvers') := by
  simp only [plus, Nat.toUInt64, UInt64.ofNat_add, UInt64.add_assoc]

end Surplus

namespace Table

variable {C : Type} {t : Table C} {tid : ThreadId} {old : ThreadState}

/-- How a change of state moves a number of threads, as a counter sees it. -/
theorem toUInt64_countOf_mark (p : ThreadState → Bool) (h : t.state? tid = some old)
    (new : ThreadState) :
    ((t.mark tid new).countOf p).toUInt64 =
      (t.countOf p).toUInt64 + (if p new then 1 else 0) - (if p old then 1 else 0) := by
  have hcast (b : Bool) : UInt64.ofNat (if b then 1 else 0) = if b then 1 else 0 := by
    cases b <;> rfl
  have hcount := congrArg UInt64.ofNat (countOf_mark p h new)
  rw [UInt64.ofNat_add, UInt64.ofNat_add, hcast, hcast] at hcount
  simp only [Nat.toUInt64]
  grind

/-- The threads inside the program are the captured and the blocked ones. -/
theorem countOf_inside (t : Table C) : t.countOf (· != .uncaptured) =
    t.capturedCount + t.countOf (· == .blocked) :=
  countOf_eq_add (q := ThreadState.isCaptured) (fun s => by cases s <;> rfl) t

end Table

namespace Ledger

variable {C σ : Type} {m : Ledger C σ} {tid next : ThreadId} {c : C} {s : σ} {p : Scheduler C σ}
  {log : Array Log.Entry}

/-- What the counters of `m` say beyond what its table shows. -/
def surplus (m : Ledger C σ) : Surplus where
  blocks := m.stats.blocks - m.stats.unblocks - (m.table.countOf (· == .blocked)).toUInt64
  captures := m.stats.captures - m.stats.uncaptures - (m.table.countOf (· != .uncaptured)).toUInt64
  uncaptures := m.stats.uncaptures - m.stats.shipped - m.stats.delayed

/-- A fresh ledger has counted nothing, and nobody is blocked or inside. -/
theorem surplus_fresh (k : Nat) (s : σ) : (fresh k s : Ledger C σ).surplus = ⟨0, 0, 0⟩ := by
  simp only [surplus, fresh, Table.countOf_ofCapacity k (p := (· == .blocked)) rfl,
    Table.countOf_ofCapacity k (p := (· != .uncaptured)) rfl]
  rfl

/-- Saved contexts are not counted. -/
@[simp] theorem surplus_withSaved (m : Ledger C σ) (tid : ThreadId) (c : C) :
    (m.withSaved tid c).surplus = m.surplus := by
  simp only [surplus, withSaved, Table.countOf_save]

/-! ## The changes that sections are made of -/

/-- A thread that enters is counted as a capture, and is inside. -/
theorem surplus_entered (hs : m.table.Outside tid) : (m.entered p tid c).surplus = m.surplus := by
  have hs' : (m.table.save tid c).state? tid = some .uncaptured := Table.state?_save.trans hs
  simp only [surplus, entered, joined, withSaved, Table.toUInt64_countOf_mark _ hs', Table.countOf_save]
  by_cases h0 : m.captured = 0 <;> grind

/-- **A runner that is replaced** is counted as uncaptured; how it comes to that is counted later. -/
theorem surplus_replaced (hb : m.table.Balanced m.captured m.runner) (hr : m.runner ≠ .nobody)
    (hn : m.table.state? next = some .idle) : (m.replaced next c s).surplus = m.surplus.plus 0 1 := by
  have hrun : (m.table.save m.runner c).state? m.runner = some .running :=
    Table.state?_save.trans (hb.runner_running hr)
  have hidle : ((m.table.save m.runner c).mark m.runner .uncaptured).state? next = some .idle :=
    (Table.state?_mark_of_ne (hb.ne_runner_of_idle hn)).trans (Table.state?_save.trans hn)
  simp only [surplus, Surplus.plus, replaced, Table.toUInt64_countOf_mark _ hidle,
    Table.toUInt64_countOf_mark _ hrun, Table.countOf_save]
  grind

/-- A runner that is switched from stays inside, and is counted as blocked if it is. -/
theorem surplus_switched (hb : m.table.Balanced m.captured m.runner) (hr : m.runner ≠ .nobody)
    (hn : m.table.state? next = some .idle) : (m.switched next c log).surplus = m.surplus := by
  have hrun : (m.table.save m.runner c).state? m.runner = some .running :=
    Table.state?_save.trans (hb.runner_running hr)
  have hidle (s : ThreadState) :
      ((m.table.save m.runner c).mark m.runner s).state? next = some .idle :=
    (Table.state?_mark_of_ne (hb.ne_runner_of_idle hn)).trans (Table.state?_save.trans hn)
  simp only [surplus, switched, runnerLeft, withSaved, Table.toUInt64_countOf_mark _ (hidle _),
    Table.toUInt64_countOf_mark _ hrun, Table.countOf_save]
  by_cases ha : m.armed <;> grind

/-- **A running thread that exits** goes out without being counted. -/
theorem surplus_vacated (hs : m.table.state? tid = some .running) :
    (m.vacated tid).surplus = m.surplus.plus 1 0 := by
  simp only [surplus, Surplus.plus, vacated, Table.toUInt64_countOf_mark _ hs]
  grind

/-- Whom a request blocks is counted. -/
theorem surplus_benched (hs : m.table.state? tid = some .idle) :
    (m.benched tid log).surplus = m.surplus := by
  simp only [surplus, benched, Table.toUInt64_countOf_mark _ hs]
  grind

/-- Whom a request unblocks is counted as well. -/
theorem surplus_revived (hs : m.table.state? tid = some .blocked) :
    (m.revived tid log).surplus = m.surplus := by
  simp only [surplus, revived, Table.toUInt64_countOf_mark _ hs]
  grind

/-- An uncapture that has been made is counted as delayed. -/
theorem surplus_debtPaid {s : Surplus} (h : m.surplus = s.plus 0 1) : (m.debtPaid log).surplus = s := by
  rw [Surplus.ext_iff] at h ⊢
  simp only [surplus, Surplus.plus, debtPaid] at h ⊢
  grind

/-- An uncapture that has been made is counted as that of a shipped call. -/
theorem surplus_shipped {s : Surplus} (h : m.surplus = s.plus 0 1) :
    (m.shipped tid log).surplus = s := by
  rw [Surplus.ext_iff] at h ⊢
  simp only [surplus, Surplus.plus, shipped] at h ⊢
  grind

/-! The other changes are about neither a state nor a counter that is compared. -/

@[simp] theorem surplus_ledBy : (m.ledBy tid log).surplus = m.surplus := rfl

@[simp] theorem surplus_cleared : (m.cleared log).surplus = m.surplus := rfl

@[simp] theorem surplus_owing : (m.owing log).surplus = m.surplus := rfl

@[simp] theorem surplus_handedOver : (m.handedOver log).surplus = m.surplus := rfl

@[simp] theorem surplus_logged : (m.logged log).surplus = m.surplus := rfl

@[simp] theorem surplus_ended : (m.ended p tid log).surplus = m.surplus := rfl

@[simp] theorem surplus_thought (m : Ledger C σ) (s : σ) :
    { m with schedulerState := s : Ledger C σ }.surplus = m.surplus := rfl

end Ledger

namespace Arbiter

open Critical Ledger

variable {C σ α : Type} {arb : Arbiter C σ} {m : Ledger C σ} {tid : ThreadId} {c : C}

/-! ## The ends of each section -/

/-- A section that succeeded was the exit of a running thread. -/
def exited (tid : ThreadId) (m : Ledger C σ) : EStateM.Result Fault (Ledger C σ) α → Bool
  | .ok .. => m.table.state? tid == some .running
  | .error .. => false

/-- The executor has given its role away in a section that succeeded. -/
def gaveAway (m : Ledger C σ) : EStateM.Result Fault (Ledger C σ) α → Bool
  | .ok _ m' => m.executor != .nobody && m'.executor == .nobody
  | .error .. => false

/-- An executor that is still the same has not given the role away. -/
theorem gaveAway_of_kept {m' : Ledger C σ} (h : m'.executor = m.executor) (a : α) :
    gaveAway m (.ok a m') = false := by simp [gaveAway, h]

/-- It has if the role is vacant then. -/
theorem gaveAway_of_vacant {m' : Ledger C σ} (he : m.executor ≠ .nobody) (h : m'.executor = .nobody)
    (a : α) : gaveAway m (.ok a m') = true := by simp [gaveAway, he, h]

theorem Settles.surplus [Context C] {r : EStateM.Result Fault (Ledger C σ) (Arrival C)}
    (hb : m.table.Balanced m.captured m.runner) (hr : Settles arb tid m r) :
    (left r).surplus = m.surplus := by
  cases hr with
  | astray | unowned | waits | leaderless => rfl
  | took | refused => simp only [left, surplus_withSaved, surplus_ledBy, surplus_thought]
  | @paid d d' x next s l ho he hn hr hd ha hnext hx =>
    rw [left, surplus_withSaved, surplus_ledBy]
    exact surplus_debtPaid (surplus_replaced hb hr hnext)

theorem Arrives.surplus [Context C] {r : EStateM.Result Fault (Ledger C σ) (Arrival C)}
    (hb : m.table.Balanced m.captured m.runner) (hr : Arrives arb tid c m r) :
    (left r).surplus = m.surplus := by
  cases hr with
  | unknown => rfl
  | inside | astray | returned => simp only [left, surplus_withSaved, surplus_cleared]
  | joined hs hset => exact (hset.surplus (entered_balanced hb _ _ hs)).trans (surplus_entered hs)

theorem Looks.surplus [Context C] {r : EStateM.Result Fault (Ledger C σ) (Arrival C)}
    (hr : Looks arb tid m r) : (left r).surplus = m.surplus := by
  cases hr with
  | unknown | unsaved | leaderless | waits => rfl
  | released | took => simp only [left, surplus_withSaved, surplus_logged, surplus_ledBy]

/-- A departure adds an uncapture that is not counted elsewhere if the executor gives its role away. -/
theorem Departs.surplus [Context C] {r : EStateM.Result Fault (Ledger C σ) (Resume C)}
    (hb : m.table.Balanced m.captured m.runner) (hr : Departs arb tid c m r) :
    (left r).surplus = m.surplus.plus 0 (gaveAway m r).toNat := by
  cases hr with
  | foreign | leaderless => exact (Surplus.plus_zero _).symm
  | lone | refused | owesAlready =>
    simp only [left, gaveAway, Bool.toNat_false, Surplus.plus_zero, surplus_withSaved, surplus_thought]
  | @shipped d x next s log he hr hne hn ha hnext hx =>
    rw [gaveAway_of_kept, left, surplus_withSaved, Bool.toNat_false, Surplus.plus_zero]
    · exact surplus_shipped (surplus_replaced hb hr hnext)
    · rfl
  | @handedOver d next s log he hr htid hn ha hnext =>
    rw [gaveAway_of_vacant (he ▸ htid), left, surplus_withSaved, surplus_handedOver]
    · exact surplus_replaced hb (hr ▸ htid) hnext
    · rfl
  | owed =>
    rw [gaveAway_of_kept, left, surplus_withSaved, surplus_owing]
    · exact (Surplus.plus_zero _).symm
    · rfl

theorem Switches.surplus [Context C] {r : EStateM.Result Fault (Ledger C σ) (Resume C)}
    (hb : m.table.Balanced m.captured m.runner) (hr : Switches arb tid c m r) :
    (left r).surplus = m.surplus := by
  cases hr with
  | refused | leaderless => rfl
  | switched hcheck hr hx =>
    obtain ⟨-, -, -, hidle⟩ := of_checkSwitch hcheck
    rw [left, surplus_withSaved]
    exact surplus_switched hb hr hidle

theorem Starts.surplus [Context C] {r : EStateM.Result Fault (Ledger C σ) C}
    (hr : Starts arb tid c m r) : (left r).surplus = m.surplus := by
  cases hr <;> rfl

/-- An exit takes a running thread out of the program without counting it. -/
theorem Finishes.surplus {r : EStateM.Result Fault (Ledger C σ) Unit} (hr : Finishes arb tid m r) :
    (left r).surplus = m.surplus.plus (exited tid m r).toNat 0 := by
  cases hr with
  | unknown | refused => exact (Surplus.plus_zero _).symm
  | outside hs =>
    rw [exited, hs]
    exact (Surplus.plus_zero _).symm
  | last hs =>
    rw [exited, hs, left, surplus_ended]
    exact surplus_vacated hs

theorem Blocks.surplus {r : EStateM.Result Fault (Ledger C σ) Unit} (hr : Blocks tid m r) :
    (left r).surplus = m.surplus := by
  cases hr with
  | unknown | refused | last => rfl
  | blocked hs => exact surplus_benched hs

theorem Unblocks.surplus {r : EStateM.Result Fault (Ledger C σ) Unit} (hr : Unblocks tid m r) :
    (left r).surplus = m.surplus := by
  cases hr with
  | unknown | refused => rfl
  | unblocked hs => exact surplus_revived hs

theorem Edits.surplus {r : EStateM.Result Fault (Ledger C σ) α} (hr : Edits tid m r) :
    (left r).surplus = m.surplus := by
  cases hr with
  | refused => rfl
  | edited => exact surplus_withSaved _ _ _

/-- An armed block is counted when a switch spends it, and not before. -/
theorem surplus_armBlock (m : Ledger C σ) : (left (armBlock m)).surplus = m.surplus := by
  rw [armBlock_apply]
  split <;> rfl

/-- Plans are counted, but compared with nothing. -/
theorem surplus_planUnit (arb : Arbiter C σ) (u : CodeUnit) (m : Ledger C σ) :
    (left (arb.planUnit u m)).surplus = m.surplus := by
  obtain ⟨e, h⟩ | ⟨plan, log, h⟩ := arb.planUnit_apply u m <;> rw [h] <;> rfl

/-! ## Any event -/

variable [Context C]

/-- **A running thread exits.** -/
def exits (arb : Arbiter C σ) (m : Ledger C σ) : Event C σ → Bool
  | .call (.finish tid) => exited tid m (arb.endThread tid m)
  | _ => false

/-- **An executor gives its role away** with a call of its own. -/
def handsOver (arb : Arbiter C σ) (m : Ledger C σ) : Event C σ → Bool
  | .call (.depart tid c) => gaveAway m (arb.depart tid c m)
  | _ => false

/-- How often an event satisfies `p` in a run that starts at `m`. -/
def occurrences (arb : Arbiter C σ) (p : Ledger C σ → Event C σ → Bool) (m : Ledger C σ) :
    List (Event C σ) → Nat
  | [] => 0
  | e :: es => (p m e).toNat + arb.occurrences p (arb.react m e) es

/-- **What a call does to the surplus**, whether it succeeds or fails. -/
theorem surplus_perform (arb : Arbiter C σ) (hb : m.table.Balanced m.captured m.runner)
    (call : Call C) : (left (arb.perform call m)).surplus =
      m.surplus.plus (arb.exits m (.call call)).toNat (arb.handsOver m (.call call)).toNat := by
  have hquiet {n : Ledger C σ} (h : n.surplus = m.surplus) : n.surplus = m.surplus.plus 0 0 :=
    h.trans (Surplus.plus_zero _).symm
  cases call with
  | start tid c =>
    exact hquiet (left_answer (·.surplus = m.surplus) (arb.startThread_outcome tid c m).surplus)
  | finish tid => exact left_answer (·.surplus = _) (arb.endThread_outcome tid m).surplus
  | arrive tid c => exact hquiet (left_answer (·.surplus = m.surplus) ((arrive_outcome hb).surplus hb))
  | depart tid c => exact left_answer (·.surplus = _) ((depart_outcome hb).surplus hb)
  | switch tid c => exact hquiet (left_answer (·.surplus = m.surplus) ((switch_outcome hb).surplus hb))
  | plan u => exact hquiet (left_answer (·.surplus = m.surplus) (arb.surplus_planUnit u m))
  | armBlock => exact hquiet (left_answer (·.surplus = m.surplus) (surplus_armBlock m))
  | block tid => exact hquiet (left_answer (·.surplus = m.surplus) (arb.block_outcome tid m).surplus)
  | unblock tid =>
    exact hquiet (left_answer (·.surplus = m.surplus) (arb.unblock_outcome tid m).surplus)
  | readRegister tid r | writeRegister tid r v | copyContext tid | replaceContext tid c =>
    exact hquiet (left_answer (·.surplus = m.surplus) (editContext_outcome tid _ m).surplus)

/-- **What an event does to the surplus.** -/
theorem surplus_react (arb : Arbiter C σ) (hb : m.table.Balanced m.captured m.runner)
    (e : Event C σ) :
    (arb.react m e).surplus = m.surplus.plus (arb.exits m e).toNat (arb.handsOver m e).toNat := by
  cases e with
  | call call => exact arb.surplus_perform hb call
  | lookAgain tid => exact (lookAgain_outcome hb).surplus.trans (Surplus.plus_zero _).symm
  | edit tid f => exact (editContext_outcome tid _ m).surplus.trans (Surplus.plus_zero _).symm
  | takePermit | think => exact (Surplus.plus_zero _).symm

/-- **What remains in the surplus after a run.** -/
theorem surplus_follow (arb : Arbiter C σ) (h : m.Sound) (es : List (Event C σ)) :
    (arb.follow m es).surplus =
      m.surplus.plus (arb.occurrences arb.exits m es) (arb.occurrences arb.handsOver m es) := by
  induction es generalizing m with
  | nil => exact (Surplus.plus_zero _).symm
  | cons e es ih =>
    rw [occurrences, occurrences, ← Surplus.plus_plus, ← arb.surplus_react h.balanced e]
    exact ih (arb.sound_react h e)

/-- **The counters balance.**  Whatever happens to a new arbiter, the counters of blocks, of captures and
of uncaptures add up, modulo `2 ^ 64`, to what the table shows, to the captured count and to one another,
once the exits of running threads and the times that an executor gave its role away are added. -/
theorem counters_balance {scheduler : Scheduler C σ} {initial : σ} {config : Config}
    {setup setup' : Setup C σ} {es : List (Event C σ)} {n : Ledger C σ}
    (h : create scheduler initial config setup = .ok (arb, m) setup') (hn : arb.follow m es = n) :
    let exits := (arb.occurrences arb.exits m es).toUInt64
    let handOvers := (arb.occurrences arb.handsOver m es).toUInt64
    n.stats.blocks = n.stats.unblocks + (n.table.states.count .blocked).toUInt64 ∧
      n.stats.captures =
        n.stats.uncaptures + exits + (n.table.states.countP (· != .uncaptured)).toUInt64 ∧
      n.captured.toUInt64 =
        n.stats.captures + n.stats.unblocks - n.stats.uncaptures - n.stats.blocks - exits ∧
      n.stats.uncaptures = n.stats.shipped + n.stats.delayed + handOvers := by
  intro exits handOvers
  have hb := (hn ▸ arb.sound_foldl es (sound_of_create h)).balanced
  have hfresh : m.surplus = ⟨0, 0, 0⟩ := (of_create_ok h).2.2.2 ▸ surplus_fresh _ _
  have hsurplus := hn ▸ arb.surplus_follow (sound_of_create h) es
  rw [hfresh, Surplus.ext_iff] at hsurplus
  have hinside := congrArg Nat.toUInt64 n.table.countOf_inside
  rw [Nat.toUInt64, UInt64.ofNat_add, ← hb.captured_eq] at hinside
  rw [List.count, ← Table.countOf_eq_states, ← Table.countOf_eq_states]
  simp only [surplus, Surplus.plus] at hsurplus
  grind

/-- The second of three threads takes over the first one's role, and exits; the third one is blocked. -/
def exitOfHeir : List (Event Cursor Rotation) :=
  [.call (.arrive ⟨0⟩ (.start ⟨0⟩)), .call (.arrive ⟨1⟩ (.start ⟨1⟩)),
    .call (.arrive ⟨2⟩ (.start ⟨2⟩)), .call (.block ⟨2⟩), .call (.depart ⟨0⟩ (.start ⟨0⟩)),
    .lookAgain ⟨1⟩, .call (.finish ⟨1⟩)]

theorem counters_balance_heir :
    let n := threeSlots.follow (.fresh 3 {}) exitOfHeir
    n.table.states = [.uncaptured, .uncaptured, .blocked] ∧
      threeSlots.occurrences threeSlots.exits (.fresh 3 {}) exitOfHeir = 1 ∧
      threeSlots.occurrences threeSlots.handsOver (.fresh 3 {}) exitOfHeir = 1 ∧
      (n.stats.captures = 3 ∧ n.stats.uncaptures = 1 ∧ n.stats.blocks = 1) ∧
      n.stats.blocks = n.stats.unblocks + 1 ∧ n.stats.captures = n.stats.uncaptures + 1 + 1 := by
  obtain ⟨setup, h⟩ := create_threeSlots
  have hstates : (threeSlots.follow (.fresh 3 {}) exitOfHeir).table.states =
      [.uncaptured, .uncaptured, .blocked] := rfl
  have hexits : threeSlots.occurrences threeSlots.exits (.fresh 3 {}) exitOfHeir = 1 := rfl
  have hrun : threeSlots.follow (.fresh 3 {}) exitOfHeir = _ := rfl
  obtain ⟨hblocks, hcaptures, -⟩ := counters_balance h hrun
  rw [hstates] at hblocks hcaptures
  rw [hexits] at hcaptures
  exact ⟨hstates, hexits, rfl, ⟨rfl, rfl, rfl⟩, hblocks, hcaptures⟩

end Arbiter

end SoleRunner
