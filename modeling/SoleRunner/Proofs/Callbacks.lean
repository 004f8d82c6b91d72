import Mathlib.Data.Set.Insert
import SoleRunner.Proofs.AnyRun
import SoleRunner.Proofs.Frame
import SoleRunner.Scheduler.Journal

/-!
# Proofs/Callbacks — a scheduler that counts along knows who is in the program

A scheduler is told who joins and who exits, and is asked who runs when a thread leaves; of blocked
threads it hears nothing.  If it counts along (`Callback.track`), it takes exactly those for members that
the table has inside the program, as long as no handler fails, and no call comes as a surprise
(`Callback.Expected`).  A ledger with its journal moves by `Ledger.Tells`, which composes; each handler is
one such move by the list of its ends, and `Arbiter.members_eq_inside` says so of every run.
-/

namespace SoleRunner

namespace Callback

variable {C : Type} {s : Set ThreadId} {xs ys : List (Callback C)} {call : Callback C}

/-! ## Counting along -/

/-- The members, after one more call. -/
def track (s : Set ThreadId) : Callback C → Set ThreadId
  | .joined tid _ => insert tid s
  | .choose tid _ | .ended tid => s \ {tid}
  | .started _ | .switchPoints _ => s

/-- **Whom a scheduler that counts along takes for members**, after these calls. -/
def members (calls : List (Callback C)) : Set ThreadId := calls.foldl track ∅

/-- **What a scheduler that counts along expects**: only a stranger joins, and only a member leaves. -/
def Expected (s : Set ThreadId) : Callback C → Prop
  | .joined tid _ => tid ∉ s
  | .choose tid _ => tid ∈ s
  | .started _ | .ended _ | .switchPoints _ => True

/-- Each of the calls is expected where it is made. -/
def AllExpected (s : Set ThreadId) : List (Callback C) → Prop
  | [] => True
  | call :: calls => call.Expected s ∧ AllExpected (call.track s) calls

/-- Calls are expected one after another. -/
theorem allExpected_append :
    AllExpected s (xs ++ ys) ↔ AllExpected s xs ∧ AllExpected (xs.foldl track s) ys := by
  induction xs generalizing s with
  | nil => exact ⟨fun h => ⟨trivial, h⟩, And.right⟩
  | cons call xs ih =>
    change _ ∧ AllExpected _ (xs ++ ys) ↔ (_ ∧ _) ∧ _
    rw [ih, and_assoc]
    rfl

theorem AllExpected.of_split (h : AllExpected s (xs ++ call :: ys)) :
    call.Expected (xs.foldl track s) := (allExpected_append.mp h).2.1

/-- None of the calls tells of a thread that joins. -/
def NobodyJoins (calls : List (Callback C)) : Prop := ∀ tid first, .joined tid first ∉ calls

theorem nobodyJoins_nil : NobodyJoins ([] : List (Callback C)) := fun _ _ => List.not_mem_nil

theorem nobodyJoins_singleton (h : ∀ tid first, call ≠ .joined tid first) : NobodyJoins [call] :=
  fun tid first hmem => h tid first (List.mem_singleton.mp hmem).symm

/-- A list that begins with a thread that joins tells of no other one. -/
theorem eq_nil_of_joined {tid u : ThreadId} {first b : Bool} {rest pre post : List (Callback C)}
    (hrest : NobodyJoins rest) (h : .joined u b :: rest = pre ++ .joined tid first :: post) :
    pre = [] ∧ tid = u ∧ first = b := by
  cases pre with
  | nil =>
    cases h
    exact ⟨rfl, rfl, rfl⟩
  | cons call pre =>
    obtain ⟨-, hsplit⟩ := List.cons.inj h
    refine absurd ?_ (hrest tid first)
    rw [hsplit]
    exact List.mem_append_right _ List.mem_cons_self

end Callback

namespace Ledger

open Callback

variable {C σ : Type} {m m' m'' : Ledger C (Journal C σ)} {p : Scheduler C σ} {tid next : ThreadId}
  {c d d' : C} {s : Journal C σ} {xs ys new : List (Callback C)}

/-! ## A ledger and its journal -/

/-- **`m'` has come from `m` with these calls**: each of them was expected, and the members changed with
the table. -/
structure Tells (m : Ledger C (Journal C σ)) (new : List (Callback C)) (m' : Ledger C (Journal C σ)) :
    Prop where
  calls_eq : m'.schedulerState.calls = m.schedulerState.calls ++ new
  inside_eq : {u | m'.table.Inside u} = new.foldl track {u | m.table.Inside u}
  expected : AllExpected {u | m.table.Inside u} new

/-- What two steps tell, they tell one after the other. -/
theorem Tells.trans (h : m.Tells xs m') (h' : m'.Tells ys m'') : m.Tells (xs ++ ys) m'' where
  calls_eq := by rw [h'.calls_eq, h.calls_eq, List.append_assoc]
  inside_eq := by rw [h'.inside_eq, h.inside_eq, List.foldl_append]
  expected := allExpected_append.mpr ⟨h.expected, h.inside_eq ▸ h'.expected⟩

/-- Nobody goes in or out, and the scheduler hears nothing. -/
theorem tells_nil (hc : m'.schedulerState.calls = m.schedulerState.calls)
    (hin : ∀ u, m'.table.Inside u ↔ m.table.Inside u) : m.Tells [] m' where
  calls_eq := by rw [hc, List.append_nil]
  inside_eq := Set.ext hin
  expected := trivial

/-- What comes after the calls does not matter if nobody goes in or out by it. -/
theorem Tells.silently (h : m.Tells new m') (hc : m''.schedulerState.calls = m'.schedulerState.calls)
    (hin : ∀ u, m''.table.Inside u ↔ m'.table.Inside u) : m.Tells new m'' :=
  new.append_nil ▸ h.trans (tells_nil hc hin)

/-- A call that says nothing about members. -/
theorem tells_aside {call : Callback C} (htrack : ∀ s, call.track s = s) (hcall : ∀ s, call.Expected s)
    (hc : m'.schedulerState.calls = m.schedulerState.calls ++ [call])
    (hin : ∀ u, m'.table.Inside u ↔ m.table.Inside u) : m.Tells [call] m' where
  calls_eq := hc
  inside_eq := (Set.ext hin).trans (htrack _).symm
  expected := ⟨hcall _, trivial⟩

/-- A newcomer joins. -/
theorem tells_entered (p : Scheduler C σ) (c : C) (hs : m.table.Outside tid) :
    m.Tells [.joined tid (m.captured == 0)] (m.entered p.journaled tid c) where
  calls_eq := rfl
  inside_eq := Set.ext fun _ => (inside_entered hs).trans or_comm
  expected := ⟨hs.not_inside, trivial⟩

/-- The runner leaves for the scheduler's choice. -/
theorem tells_replaced (hb : m.table.Balanced m.captured m.runner) (hr : m.runner ≠ .nobody)
    (ha : p.journaled.choose m.runner d m.schedulerState = (next, d', s))
    (hn : m.table.state? next = some .idle) : m.Tells [.choose m.runner d] (m.replaced next d' s) where
  calls_eq := by
    rw [← p.calls_journaled_choose m.runner d m.schedulerState, ha]
    rfl
  inside_eq := Set.ext fun _ => inside_replaced hb hr hn
  expected := ⟨hb.runner_inside hr, trivial⟩

/-- A thread exits, and is not inside any more. -/
theorem tells_ended (hc : m'.schedulerState.calls = m.schedulerState.calls ++ [.ended tid])
    (hin : ∀ u, m'.table.Inside u ↔ m.table.Inside u ∧ u ≠ tid) : m.Tells [.ended tid] m' where
  calls_eq := hc
  inside_eq := Set.ext hin
  expected := ⟨trivial, trivial⟩

/-- `m'` has come from `m`, and nobody has joined. -/
def GoesOn (m m' : Ledger C (Journal C σ)) : Prop := ∃ new, NobodyJoins new ∧ m.Tells new m'

/-- A step that tells nothing goes on if nobody goes in or out. -/
theorem goesOn_silently (hc : m'.schedulerState.calls = m.schedulerState.calls)
    (hin : ∀ u, m'.table.Inside u ↔ m.table.Inside u) : m.GoesOn m' :=
  ⟨[], nobodyJoins_nil, tells_nil hc hin⟩

end Ledger

namespace Arbiter

open Callback Critical Ledger

variable {C σ : Type} {arb : Arbiter C (Journal C σ)} {m m' : Ledger C (Journal C σ)}
  {p : Scheduler C σ} {tid : ThreadId} {c : C}

/-! ## Each handler -/

theorem Settles.goesOn [Context C] {a : Arrival C} (hp : arb.scheduler = p.journaled)
    (hb : m.table.Balanced m.captured m.runner) (hr : Settles arb tid m (.ok a m')) : m.GoesOn m' := by
  cases hr with
  | @paid d d' x next s l ho he hn hr hd ha hnext hx =>
    rw [hp] at ha
    refine ⟨[.choose m.runner d], nobodyJoins_singleton nofun, ?_⟩
    exact (tells_replaced hb hr ha hnext).silently rfl fun _ => inside_withSaved
  | took => exact goesOn_silently rfl fun _ => inside_withSaved
  | waits => exact goesOn_silently rfl fun _ => .rfl

/-- An arrival that joins tells of that first. -/
theorem Arrives.tells [Context C] {a : Arrival C} (hp : arb.scheduler = p.journaled)
    (hb : m.table.Balanced m.captured m.runner) (hr : Arrives arb tid c m (.ok a m')) :
    m.GoesOn m' ∨
      ∃ rest, NobodyJoins rest ∧ m.Tells (.joined tid (m.captured == 0) :: rest) m' := by
  cases hr with
  | returned => exact .inl (goesOn_silently rfl fun _ => inside_withSaved)
  | joined hs hset =>
    obtain ⟨rest, hrest, htells⟩ := hset.goesOn hp (entered_balanced hb arb.scheduler c hs)
    rw [hp] at htells
    exact .inr ⟨rest, hrest, (tells_entered p c hs).trans htells⟩

theorem Looks.goesOn [Context C] {a : Arrival C} (hr : Looks arb tid m (.ok a m')) : m.GoesOn m' := by
  cases hr with
  | released => exact goesOn_silently rfl fun _ => inside_withSaved
  | took => exact goesOn_silently rfl fun _ => inside_withSaved
  | waits => exact goesOn_silently rfl fun _ => .rfl

theorem Departs.goesOn [Context C] {r : Resume C} (hp : arb.scheduler = p.journaled)
    (hb : m.table.Balanced m.captured m.runner) (hr : Departs arb tid c m (.ok r m')) :
    m.GoesOn m' := by
  cases hr with
  | shipped he hr hne hn ha hnext hx =>
    rw [hp] at ha
    refine ⟨[.choose m.runner c], nobodyJoins_singleton nofun, ?_⟩
    exact (tells_replaced hb hr ha hnext).silently rfl fun _ => inside_withSaved
  | handedOver he hr htid hn ha hnext =>
    subst hr
    rw [hp] at ha
    refine ⟨[.choose m.runner c], nobodyJoins_singleton nofun, ?_⟩
    exact (tells_replaced hb htid ha hnext).silently rfl fun _ => inside_withSaved
  | owed => exact goesOn_silently rfl fun _ => inside_withSaved

theorem Switches.goesOn [Context C] {r : Resume C} (hb : m.table.Balanced m.captured m.runner)
    (hr : Switches arb tid c m (.ok r m')) : m.GoesOn m' := by
  cases hr with
  | switched hcheck hr hx =>
    obtain ⟨-, -, -, hidle⟩ := of_checkSwitch hcheck
    exact goesOn_silently rfl fun _ => inside_withSaved.trans (inside_switched hb hr hidle)

theorem Starts.goesOn [Context C] {c' : C} (hp : arb.scheduler = p.journaled)
    (hr : Starts arb tid c m (.ok c' m')) : m.GoesOn m' := by
  cases hr with
  | started =>
    rw [hp]
    exact ⟨[.started tid], nobodyJoins_singleton nofun,
      tells_aside (fun _ => rfl) (fun _ => trivial) rfl fun _ => .rfl⟩

theorem Finishes.goesOn (hp : arb.scheduler = p.journaled) (hr : Finishes arb tid m (.ok () m')) :
    m.GoesOn m' := by
  refine ⟨[.ended tid], nobodyJoins_singleton nofun, ?_⟩
  cases hr with
  | outside hs =>
    rw [hp]
    refine tells_ended rfl fun u => (and_iff_left_of_imp fun hu => ?_).symm
    rintro rfl
    exact Table.Outside.not_inside hs hu
  | last hs =>
    rw [hp]
    exact tells_ended rfl fun u => inside_vacated hs

theorem goesOn_planUnit {plan : Plan} {u : CodeUnit} (hp : arb.scheduler = p.journaled)
    (h : arb.planUnit u m = .ok plan m') : m.GoesOn m' := by
  obtain ⟨e, herr⟩ | ⟨plan', log, hok⟩ := arb.planUnit_apply u m
  · rw [herr] at h
    nomatch h
  · rw [hok, hp] at h
    cases h
    exact ⟨[.switchPoints u], nobodyJoins_singleton nofun,
      tells_aside (fun _ => rfl) (fun _ => trivial) rfl fun _ => .rfl⟩

/-! ## Runs in which no handler fails -/

variable [Context C] {e : Event C σ}

/-- **An event of a run in which no handler fails**; a request may be refused.  A scheduler that changes
its mind leaves the journal alone. -/
def record (arb : Arbiter C (Journal C σ)) (m : Ledger C (Journal C σ)) :
    Event C σ → Option (Ledger C (Journal C σ))
  | .call call =>
    match arb.perform call m with
    | .ok _ m' => some m'
    | .error _ m' => if call.isHandler then none else some m'
  | .lookAgain tid =>
    match arb.lookAgain tid m with
    | .ok _ m' => some m'
    | .error _ _ => none
  | .takePermit tid => some (m.woken tid)
  | .edit tid f => some (left (editContext tid (fun c => ((), f c)) m))
  | .think s => some { m with schedulerState := { m.schedulerState with state := s } }

theorem goesOn_request {call : Call C} (h : left (arb.perform call m) = m')
    (hc : call.isHandler = false) : m.GoesOn m' :=
  h ▸ goesOn_silently (congrArg Journal.calls (arb.schedulerState_request hc m))
    (arb.keeps_request hc m).inside_iff

/-- **What one event tells the scheduler**: only an arrival can tell of a thread that joins, and does so
first. -/
def Continues (m : Ledger C (Journal C σ)) (e : Event C σ) (m' : Ledger C (Journal C σ)) : Prop :=
  m.GoesOn m' ∨ ∃ tid c rest, e = .call (.arrive tid c) ∧ NobodyJoins rest ∧
    m.Tells (.joined tid (m.captured == 0) :: rest) m'

omit [Context C] in
theorem Continues.joins (h : Continues m e m') : ∃ new, m.Tells new m' ∧
    ∀ pre tid first post, new = pre ++ .joined tid first :: post →
      pre = [] ∧ first = (m.captured == 0) ∧ ∃ c, e = .call (.arrive tid c) := by
  obtain ⟨new, hnew, htells⟩ | ⟨u, c, rest, rfl, hrest, htells⟩ := h
  · refine ⟨new, htells, fun pre tid first post hsplit => absurd ?_ (hnew tid first)⟩
    rw [hsplit]
    exact List.mem_append_right _ List.mem_cons_self
  · refine ⟨_, htells, fun pre tid first post hsplit => ?_⟩
    obtain ⟨hpre, rfl, rfl⟩ := eq_nil_of_joined hrest hsplit
    exact ⟨hpre, rfl, c, rfl⟩

/-- **A call that succeeds continues the story that the scheduler was told.** -/
theorem continues_perform (hp : arb.scheduler = p.journaled)
    (hb : m.table.Balanced m.captured m.runner) {call : Call C} {a : Reply C}
    (h : arb.perform call m = .ok a m') : Continues m (.call call) m' := by
  cases call with
  | start tid c =>
    obtain ⟨c', h, -⟩ := of_answer h
    exact .inl (Starts.goesOn hp (h ▸ arb.startThread_outcome tid c m))
  | finish tid =>
    obtain ⟨_, h, -⟩ := of_answer h
    exact .inl (Finishes.goesOn hp (h ▸ arb.endThread_outcome tid m))
  | arrive tid c =>
    obtain ⟨_, h, -⟩ := of_answer h
    have hr : Arrives arb tid c m (.ok _ m') := h ▸ arrive_outcome hb
    exact (hr.tells hp hb).imp_right fun ⟨rest, htells⟩ => ⟨tid, c, rest, rfl, htells⟩
  | depart tid c =>
    obtain ⟨_, h, -⟩ := of_answer h
    exact .inl (Departs.goesOn hp hb (h ▸ depart_outcome hb))
  | switch tid c =>
    obtain ⟨_, h, -⟩ := of_answer h
    exact .inl (Switches.goesOn hb (h ▸ switch_outcome hb))
  | plan u =>
    obtain ⟨_, h, -⟩ := of_answer h
    exact .inl (goesOn_planUnit hp h)
  | armBlock | block | unblock | readRegister | writeRegister | copyContext | replaceContext =>
    exact .inl (goesOn_request (congrArg left h) rfl)

/-- A call that went on has succeeded, or is a request that was refused. -/
theorem of_record_call {call : Call C} (h : arb.record m (.call call) = some m') :
    left (arb.perform call m) = m' ∧
      ((∃ a, arb.perform call m = .ok a m') ∨ call.isHandler = false) := by
  unfold record at h
  dsimp only at h
  split at h
  next a n hok =>
    cases h
    exact ⟨congrArg left hok, .inl ⟨a, hok⟩⟩
  next err n herr =>
    split at h
    · nomatch h
    next hreq =>
      cases h
      exact ⟨congrArg left herr, .inr (Bool.eq_false_iff.mpr hreq)⟩

theorem of_record_lookAgain (h : arb.record m (.lookAgain tid) = some m') :
    ∃ a, arb.lookAgain tid m = .ok a m' := by
  unfold record at h
  dsimp only at h
  split at h
  next a n hok =>
    cases h
    exact ⟨a, hok⟩
  next => nomatch h

/-- **So does any event that succeeds.** -/
theorem continues_record (hp : arb.scheduler = p.journaled) (hs : m.Sound)
    (h : arb.record m e = some m') : Continues m e m' := by
  cases e with
  | call call =>
    obtain ⟨hleft, ⟨a, hok⟩ | hreq⟩ := of_record_call h
    · exact continues_perform hp hs.balanced hok
    · exact .inl (goesOn_request hleft hreq)
  | lookAgain tid =>
    obtain ⟨a, hok⟩ := of_record_lookAgain h
    exact .inl (Looks.goesOn (hok ▸ lookAgain_outcome hs.balanced))
  | takePermit tid =>
    cases h
    exact .inl (goesOn_silently rfl fun _ => .rfl)
  | edit tid f =>
    cases h
    have hr := editContext_outcome tid (fun c => ((), f c)) m
    exact .inl (goesOn_silently (congrArg Journal.calls hr.schedulerState_eq) hr.keeps.inside_iff)
  | think s =>
    cases h
    exact .inl (goesOn_silently rfl fun _ => .rfl)

theorem sound_record (hs : m.Sound) (h : arb.record m e = some m') : m'.Sound := by
  cases e with
  | call call => exact (of_record_call h).1 ▸ arb.sound_perform hs call
  | lookAgain tid =>
    obtain ⟨a, hok⟩ := of_record_lookAgain h
    have hr : Looks arb tid m (.ok a m') := hok ▸ lookAgain_outcome hs.balanced
    exact hr.sound hs
  | takePermit tid =>
    cases h
    exact hs.withRest _ _ _ _ _
  | edit tid f =>
    cases h
    exact (editContext_outcome tid _ m).sound hs
  | think s =>
    cases h
    exact hs.withRest _ _ _ _ _

theorem sound_foldlM {es : List (Event C σ)} {n : Ledger C (Journal C σ)} (hs : m.Sound)
    (h : es.foldlM arb.record m = some n) : n.Sound := by
  induction es generalizing m with
  | nil =>
    cases h
    exact hs
  | cons e es ih =>
    obtain ⟨m', hrec, hrest⟩ := Option.bind_eq_some_iff.mp h
    exact ih (arb.sound_record hs hrec) hrest

/-- **What a run tells the scheduler**: where it tells of a thread that joins, that thread arrives. -/
theorem tells_foldlM (hp : arb.scheduler = p.journaled) {es : List (Event C σ)}
    {n : Ledger C (Journal C σ)} (hs : m.Sound) (h : es.foldlM arb.record m = some n) :
    ∃ new, m.Tells new n ∧ ∀ pre tid first post, new = pre ++ .joined tid first :: post →
      ∃ es₁ c es₂ k, es = es₁ ++ .call (.arrive tid c) :: es₂ ∧ es₁.foldlM arb.record m = some k ∧
        m.Tells pre k ∧ first = (k.captured == 0) := by
  induction es generalizing m with
  | nil =>
    cases h
    refine ⟨[], tells_nil rfl fun _ => .rfl, fun pre tid first post hsplit => ?_⟩
    cases pre <;> nomatch hsplit
  | cons e es ih =>
    obtain ⟨m', hrec, hrest⟩ := Option.bind_eq_some_iff.mp h
    obtain ⟨xs, hxs, hjoins⟩ := (continues_record hp hs hrec).joins
    obtain ⟨ys, hys, hlater⟩ := ih (arb.sound_record hs hrec) hrest
    refine ⟨xs ++ ys, hxs.trans hys, fun pre tid first post hsplit => ?_⟩
    -- The thread joins either with this event or later.
    obtain ⟨mid, rfl, hmid⟩ | ⟨mid, rfl, hmid⟩ := List.append_eq_append_iff.mp hsplit
    · obtain ⟨es₁, c, es₂, k, rfl, hk, hpre, hfirst⟩ := hlater mid tid first post hmid
      exact ⟨e :: es₁, c, es₂, k, rfl, Option.bind_eq_some_iff.mpr ⟨m', hrec, hk⟩, hxs.trans hpre,
        hfirst⟩
    · cases mid with
      | nil =>
        obtain ⟨es₁, c, es₂, k, rfl, hk, hpre, hfirst⟩ := hlater [] tid first post hmid.symm
        refine ⟨e :: es₁, c, es₂, k, rfl, Option.bind_eq_some_iff.mpr ⟨m', hrec, hk⟩, ?_, hfirst⟩
        rw [List.append_nil] at hxs
        exact pre.append_nil ▸ hxs.trans hpre
      | cons call mid =>
        obtain ⟨rfl, -⟩ := List.cons.inj hmid
        obtain ⟨rfl, hfirst, c, rfl⟩ := hjoins pre tid first mid rfl
        exact ⟨[], c, es, m, rfl, rfl, tells_nil rfl fun _ => .rfl, hfirst⟩

/-- **A scheduler that counts along knows who is inside the program**, as long as no handler fails: nobody
joins who is a member already, nobody is uncaptured who is none, and a thread is called the first one
exactly if nobody is idle and nobody runs.  What the ledger is at that moment is said by `k`: an arrival
tells the scheduler before it changes any state. -/
theorem members_eq_inside {initial : σ} {config : Config} {setup setup' : Setup C (Journal C σ)}
    {es : List (Event C σ)} {n : Ledger C (Journal C σ)}
    (h : create p.journaled ⟨initial, []⟩ config setup = .ok (arb, m) setup')
    (hrun : es.foldlM arb.record m = some n) :
    members n.schedulerState.calls = {u | n.table.Inside u} ∧
      (∀ pre tid first post, n.schedulerState.calls = pre ++ .joined tid first :: post →
        tid ∉ members pre ∧
          ∃ es₁ c es₂ k, es = es₁ ++ .call (.arrive tid c) :: es₂ ∧
            es₁.foldlM arb.record m = some k ∧ k.schedulerState.calls = pre ∧
            (first = true ↔
              ∀ u, k.table.state? u ≠ some .idle ∧ k.table.state? u ≠ some .running)) ∧
      ∀ pre tid c post, n.schedulerState.calls = pre ++ .choose tid c :: post →
        tid ∈ members pre := by
  have hs := sound_of_create h
  obtain ⟨-, hp, -, rfl⟩ := of_create_ok h
  obtain ⟨new, htells, hjoins⟩ := tells_foldlM hp hs hrun
  have hempty : {u | (Table.ofCapacity config.capacity : Table C).Inside u} = ∅ :=
    Set.eq_empty_of_forall_notMem fun _ => Table.not_inside_ofCapacity
  obtain ⟨hcalls, hinside, hexpected⟩ := htells
  rw [show n.schedulerState.calls = new from hcalls]
  change _ = new.foldl track {u | (Table.ofCapacity config.capacity : Table C).Inside u} at hinside
  change AllExpected {u | (Table.ofCapacity config.capacity : Table C).Inside u} new at hexpected
  rw [hempty] at hinside hexpected
  refine ⟨hinside.symm, ?_, ?_⟩
  · rintro pre tid first post rfl
    obtain ⟨es₁, c, es₂, k, hes, hk, hpre, rfl⟩ := hjoins pre tid first post rfl
    have hk' := (sound_foldlM hs hk).balanced
    exact ⟨hexpected.of_split, es₁, c, es₂, k, hes, hk, hpre.calls_eq,
      beq_iff_eq.trans hk'.captured_eq_zero_iff⟩
  · rintro pre tid c post rfl
    exact hexpected.of_split

/-- A thread makes a system call alone, and is uncaptured when another one arrives. -/
def delayedCall : List (Event Cursor Rotation) :=
  [.call (.arrive ⟨0⟩ (.start ⟨0⟩)), .call (.depart ⟨0⟩ (.start ⟨0⟩)),
    .call (.arrive ⟨1⟩ (.start ⟨1⟩))]

theorem members_after_delayedCall : ∃ n, delayedCall.foldlM journaledSlots.record
      (.fresh 2 ⟨{}, []⟩) = some n ∧
    n.schedulerState.calls = [.joined ⟨0⟩ true, .joined ⟨1⟩ false,
      .choose ⟨0⟩ (journaledSlots.stampPlain (.start ⟨0⟩))] ∧
    members n.schedulerState.calls = {u | n.table.Inside u} := by
  obtain ⟨setup, h⟩ := create_journaledSlots
  obtain ⟨n, hn⟩ : ∃ n, delayedCall.foldlM journaledSlots.record (.fresh 2 ⟨{}, []⟩) = some n :=
    ⟨_, rfl⟩
  refine ⟨n, hn, ?_, (members_eq_inside h hn).1⟩
  cases hn
  rfl

end Arbiter

end SoleRunner
