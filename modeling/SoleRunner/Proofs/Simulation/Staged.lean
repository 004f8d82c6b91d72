import Mathlib.Logic.Function.Basic
import SoleRunner.Proofs.Simulation.Beats
import SoleRunner.Proofs.Undisturbed

/-!
# Proofs/Simulation/Staged — simulated threads use an arbiter as they should

The threads of a world are a crew around its ledger (`World.crew`), and each of them makes only the calls
that its mark allows (`Machine.Fits`).  So every beat that succeeds is a move of that crew, made by one of
its threads (`Acts.moves`), and what such moves keep of a crew, beats keep of a world (`Staged`).
-/

namespace SoleRunner.Simulation

variable {σ π : Type} {w w' v : World σ π} {machine : Machine σ π} {me u : ThreadId} {c : Cursor}
  {x x' : Worker} {i : Nat} {last : ThreadId → Option (Resume Cursor)} {is : List Nat}

/-! ## The crew of a world -/

/-- Where the arbiter has a thread; `last` is the answer that resumed it. -/
def Worker.place (x : Worker) (last : Option (Resume Cursor)) : Place Cursor :=
  match x.stage with
  | .due .start | .ended => .absent
  | .asleep => .inside false
  | .awake => .inside true
  | _ => .outside x.cursor last

theorem Worker.place_of_ended (h : x.stage = .ended) (l : Option (Resume Cursor)) :
    x.place l = .absent := by
  rw [place, h]

theorem Worker.place_of_asleep (h : x.stage = .asleep) (l : Option (Resume Cursor)) :
    x.place l = .inside false := by
  rw [place, h]

/-- A thread after a critical section of its arrival is where that left it. -/
theorem Worker.place_ofArrival (c : Cursor) (a : Arrival Cursor) :
    ∃ l, (Worker.ofArrival c a).place l = a.place := by
  cases a with
  | resumed r => exact ⟨some r, rfl⟩
  | waiting => exact ⟨none, rfl⟩

/-- The answer that resumed a thread shows only where it is in some code. -/
theorem Worker.place_eq_or (x : Worker) (l k : Option (Resume Cursor)) :
    x.place l = x.place k ∨ x.place l = .outside x.cursor l ∧ x.place k = .outside x.cursor k := by
  obtain ⟨c, stage⟩ := x
  cases stage with
  | due p => cases p <;> first | exact .inl rfl | exact .inr ⟨rfl, rfl⟩
  | _ => first | exact .inl rfl | exact .inr ⟨rfl, rfl⟩

namespace World

/-- The worker that is thread `u`, if there is one. -/
def worker? (w : World σ π) (u : ThreadId) : Option Worker := w.workers[u.index]?

/-- **The crew of a world**, whose threads were last resumed as `last` says. -/
def crew (w : World σ π) (last : ThreadId → Option (Resume Cursor)) : Crew Cursor σ where
  ledger := w.ledger
  place u :=
    match w.worker? u with
    | some x => x.place (last u)
    | none => .absent

@[simp] theorem ledger_crew (w : World σ π) (last : ThreadId → Option (Resume Cursor)) :
    (w.crew last).ledger = w.ledger := rfl

theorem place_crew (h : w.worker? u = some x) : (w.crew last).place u = x.place (last u) := by
  rw [crew]
  simp only [h]

theorem place_crew_of_none (h : w.worker? u = none) : (w.crew last).place u = .absent := by
  rw [crew]
  simp only [h]

theorem worker?_ofIndex (h : i < ThreadId.nobody.index) : w.worker? (.ofIndex i) = w.workers[i]? := by
  rw [worker?, ThreadId.index_ofIndex h]

theorem lt_size (h : w.workers[i]? = some x) : i < w.workers.size := (Array.getElem?_eq_some_iff.mp h).1

/-- Once a thread has changed, it is the new one, and everybody else is as before. -/
theorem of_workers_withWorker {j : Nat} {y : Worker} (hv : v.workers = w.workers)
    (h : (v.withWorker i x).workers[j]? = some y) :
    j = i ∧ y = x ∨ j ≠ i ∧ w.workers[j]? = some y := by
  rw [withWorker, Array.getElem?_setIfInBounds, hv] at h
  split at h
  next hij =>
    split at h
    · exact .inl ⟨hij.symm, (Option.some.inj h).symm⟩
    · cases h
  next hij => exact .inr ⟨Ne.symm hij, h⟩

theorem worker?_withWorker_self (hv : v.workers = w.workers) (hi : i < w.workers.size)
    (hcap : w.workers.size ≤ ThreadId.nobody.index) (x : Worker) :
    (v.withWorker i x).worker? (.ofIndex i) = some x := by
  rw [worker?, ThreadId.index_ofIndex (Nat.lt_of_lt_of_le hi hcap)]
  exact workers_withWorker_self (hv ▸ hi) x

theorem worker?_withWorker_of_ne (hv : v.workers = w.workers) (hu : u ≠ .ofIndex i) (x : Worker) :
    (v.withWorker i x).worker? u = w.worker? u := by
  have hne : i ≠ u.index := by
    rintro rfl
    exact hu (ThreadId.ofIndex_index u).symm
  rw [worker?, worker?, withWorker, Array.getElem?_setIfInBounds_ne hne, hv]

/-- A thread that changes puts itself where it is now. -/
theorem crew_withWorker (last : ThreadId → Option (Resume Cursor)) (hv : v.workers = w.workers)
    (hi : i < w.workers.size) (hcap : w.workers.size ≤ ThreadId.nobody.index) (x : Worker)
    (l : Option (Resume Cursor)) :
    (v.withWorker i x).crew (Function.update last (.ofIndex i) l) =
      (w.crew last).put v.ledger (.ofIndex i) (x.place l) := by
  refine congrArg (Crew.mk v.ledger) (funext fun u => ?_)
  rcases eq_or_ne u (.ofIndex i) with rfl | hu
  · simp only [worker?_withWorker_self hv hi hcap x, if_true, Function.update_self]
  · simp only [worker?_withWorker_of_ne hv hu x, if_neg hu, Function.update_of_ne hu]
    rfl

end World

/-! ## What a thread may be about to do -/

/-- **The machine reads the executor's mark and writes a decision where the arbiter does**, in registers
that a cursor has. -/
structure Machine.Wired (machine : Machine σ π) : Prop where
  role_eq : machine.roleReg = machine.arbiter.roleReg
  choice_eq : machine.choiceReg = machine.arbiter.choiceReg
  differ : machine.arbiter.roleReg ≠ machine.arbiter.choiceReg
  role_lt : machine.arbiter.roleReg.slot.toNat < 4
  choice_lt : machine.arbiter.choiceReg.slot.toNat < 4

namespace Machine

/-- **What a thread is about to do fits its cursor**: it calls only what its mark allows, what it decided
stands in its choice register, and it exits at the end of a program. -/
def Fits (machine : Machine σ π) (me : ThreadId) (x : Worker) : Prop :=
  match x.stage with
  | .due .start => x.cursor = .start me
  | .due .arrival => machine.role x.cursor = 0
  | .due .departure | .due .switch => machine.role x.cursor ≠ 0
  | .due .finish => machine.role x.cursor = 0 ∧ machine.nextOp x.cursor = none
  | .due .wake => False
  | .decided next => machine.role x.cursor ≠ 0 ∧ machine.arbiter.decision x.cursor = next
  | .ended => machine.nextOp x.cursor = none
  | .going | .asleep | .awake | .crashed => True

theorem fits_ofArrival (c : Cursor) (a : Arrival Cursor) : machine.Fits me (.ofArrival c a) := by
  cases a <;> exact trivial

theorem Fits.not_due_wake (h : machine.Fits me x) : x.stage ≠ .due .wake := by
  intro hstage
  simp only [Fits, hstage] at h

/-- The mark as the arbiter reads it. -/
theorem Wired.role (hwired : machine.Wired) (c : Cursor) :
    machine.role c = Context.reg c machine.arbiter.roleReg := by
  rw [Machine.role, hwired.role_eq]
  rfl

/-- Writing a decision leaves the mark alone. -/
theorem Wired.role_decided (hwired : machine.Wired) (c : Cursor) (val : UInt64) :
    machine.role { c.setReg machine.choiceReg val with hooked := true } = machine.role c := by
  have hne : machine.choiceReg ≠ machine.arbiter.roleReg := hwired.choice_eq ▸ hwired.differ.symm
  rw [hwired.role, hwired.role]
  exact (Cursor.stores hwired.role_lt).reg_setReg_of_ne c machine.choiceReg val hne

/-- The arbiter finds the decision that was written. -/
theorem Wired.decision_decided (hwired : machine.Wired) (c : Cursor) (next : ThreadId) :
    machine.arbiter.decision { c.setReg machine.choiceReg next.toReg with hooked := true } = next := by
  rw [hwired.choice_eq]
  refine (congrArg ThreadId.ofReg ?_).trans (ThreadId.ofReg_toReg next)
  exact (Cursor.stores hwired.choice_lt).reg_setReg c next.toReg

end Machine

/-! ## A beat is a move of the crew -/

namespace Machine

theorem Runs.workers_eq (h : Runs machine me w x x' v) : v.workers = w.workers := by cases h <;> rfl

theorem Acts.workers_eq (h : Acts machine me w x x' v) : v.workers = w.workers := by
  cases h with
  | runs h => exact h.workers_eq
  | _ => rfl

theorem Runs.fits (hwired : machine.Wired) (hfits : machine.Fits me x)
    (h : Runs machine me w x x' v) : machine.Fits me x' := by
  cases h with
  | departs hop hrole => exact hrole
  | finishes hop hrole => exact ⟨hrole, hop⟩
  | arrives hop hrole => exact hrole
  | computes => trivial
  | ships hop hrole => exact hrole
  | syscalls => trivial
  | crashes => trivial
  | decides hrole hpolicy =>
    exact ⟨(hwired.role_decided _ _).trans_ne hrole, hwired.decision_decided _ _⟩
  | turns => exact hfits.1
  | stays => trivial

theorem Acts.fits (hwired : machine.Wired) (hfits : machine.Fits me x)
    (h : Acts machine me w x x' v) : machine.Fits me x' := by
  cases h with
  | start => trivial
  | arrive => exact fits_ofArrival _ _
  | depart => trivial
  | switch => trivial
  | finish => exact hfits.2
  | wake => trivial
  | look => exact fits_ofArrival _ _
  | runs h => exact h.fits hwired hfits
  | rests => exact hfits

/-- What a thread does by itself is a move of its crew, but for the scheduler's state. -/
theorem Runs.moves (hwired : machine.Wired) (h : Runs machine me w x x' v)
    (hp : (w.crew last).place me = x.place (last me)) :
    ∃ l mv, mv.isOwn ∧ Crew.Moves machine.arbiter (w.crew last) mv
        ((w.crew last).put w.ledger me (x'.place l)) ∧
      ∃ s, v.ledger = { w.ledger with schedulerState := s } := by
  have hcompute (c' : Cursor) (hrole : machine.role c' = machine.role x.cursor)
      (hplace : x.place (last me) = .outside x.cursor (last me)) :
      Crew.Moves machine.arbiter (w.crew last) (.compute me c')
        ((w.crew last).put w.ledger me (.outside c' (last me))) :=
    .compute (hp.trans hplace) (by rw [← hwired.role, ← hwired.role, hrole])
  cases h with
  | decides hrole hpolicy =>
    exact ⟨_, _, rfl, hcompute _ (hwired.role_decided _ _) rfl, _, rfl⟩
  | crashes => exact ⟨_, _, rfl, hcompute _ rfl rfl, _, rfl⟩
  | _ => exact ⟨_, _, rfl, hcompute _ rfl rfl, w.ledger.schedulerState, rfl⟩

/-- **A beat that succeeds is a move of the crew by one of its threads**, but for the scheduler's state
and the log; or it changes nothing. -/
theorem Acts.moves (hwired : machine.Wired) (hfits : machine.Fits me x)
    (h : Acts machine me w x x' v) (hp : (w.crew last).place me = x.place (last me)) :
    x' = x ∧ v = w ∨
    ∃ l mv n, mv.isOwn ∧
      Crew.Moves machine.arbiter (w.crew last) mv ((w.crew last).put n me (x'.place l)) ∧
      ∃ s log, v.ledger = { n with schedulerState := s, log } := by
  cases h with
  | start h => exact .inr ⟨none, _, _, rfl, .start hp h, _, _, rfl⟩
  | @arrive c a m h =>
    obtain ⟨l, hl⟩ := Worker.place_ofArrival c a
    refine .inr ⟨l, .arrive me, m, rfl, ?_, _, _, rfl⟩
    rw [hl]
    exact .arrive hp (hwired.role c ▸ hfits) h
  | @depart c r m h =>
    exact .inr ⟨some r, _, _, rfl, .depart hp (hwired.role c ▸ hfits) h, _, _, rfl⟩
  | @switch c r m h =>
    exact .inr ⟨some r, _, _, rfl, .switch hp (hwired.role c ▸ hfits) h, _, _, rfl⟩
  | @finish c m log h =>
    exact .inr ⟨none, _, _, rfl, .finish hp (hwired.role c ▸ hfits.1) h, _, _, rfl⟩
  | wake h => exact .inr ⟨none, _, _, rfl, .wake hp h, _, _, rfl⟩
  | @look c a m h =>
    obtain ⟨l, hl⟩ := Worker.place_ofArrival c a
    refine .inr ⟨l, .look me, m, rfl, ?_, _, _, rfl⟩
    rw [hl]
    exact .look hp h
  | runs h =>
    obtain ⟨l, mv, hown, hm, s, hv⟩ := h.moves hwired hp
    exact .inr ⟨l, mv, _, hown, hm, s, _, hv⟩
  | rests => exact .inl ⟨rfl, rfl⟩

end Machine

/-! ## Worlds in order -/

open Machine

/-- **The threads of a world are where its ledger says**, nobody has interfered with them, and what each
is about to do fits. -/
structure Staged (machine : Machine σ π) (last : ThreadId → Option (Resume Cursor))
    (w : World σ π) : Prop where
  stationed : (w.crew last).Stationed
  marked : Crew.Marked machine.arbiter (w.crew last)
  undisturbed : (w.crew last).Undisturbed
  fits : ∀ i x, w.workers[i]? = some x → machine.Fits (.ofIndex i) x
  size_le : w.workers.size ≤ w.ledger.table.capacity

namespace Staged

theorem size_le_nobody (h : Staged machine last w) : w.workers.size ≤ ThreadId.nobody.index :=
  Nat.le_trans h.size_le h.stationed.sound.balanced.capacity_le

theorem worker?_eq (h : Staged machine last w) (hx : w.workers[i]? = some x) :
    w.worker? (.ofIndex i) = some x :=
  (World.worker?_ofIndex (Nat.lt_of_lt_of_le (World.lt_size hx) h.size_le_nobody)).trans hx

/-- Every thread is in the table. -/
theorem index_lt (h : Staged machine last w) (hx : w.workers[i]? = some x) :
    (ThreadId.ofIndex i).index < w.ledger.table.capacity := by
  rw [ThreadId.index_ofIndex (Nat.lt_of_lt_of_le (World.lt_size hx) h.size_le_nobody)]
  exact Nat.lt_of_lt_of_le (World.lt_size hx) h.size_le

theorem place_eq (h : Staged machine last w) (hx : w.workers[i]? = some x) :
    (w.crew last).place (.ofIndex i) = x.place (last (.ofIndex i)) :=
  World.place_crew (h.worker?_eq hx)

/-- What is kept beside the threads and the roles does not matter. -/
theorem of_crew {n : Ledger Cursor σ} {stats : Stats} {s : σ} {log : Array Log.Entry}
    {place : ThreadId → Place Cursor} (hw : Crew.Stationed ⟨n, place⟩)
    (hm : Crew.Marked machine.arbiter ⟨n, place⟩) (hu : Crew.Undisturbed ⟨n, place⟩)
    (hv : v.crew last = ⟨{ n with stats, schedulerState := s, log }, place⟩)
    (hfits : ∀ i x, v.workers[i]? = some x → machine.Fits (.ofIndex i) x)
    (hsize : v.workers.size ≤ n.table.capacity) : Staged machine last v := by
  have hkeeps : n.Keeps { n with stats, schedulerState := s, log } :=
    ⟨rfl, rfl, rfl, rfl, rfl, fun _ => .rfl, fun _ => .rfl⟩
  have hledger : v.ledger = { n with stats, schedulerState := s, log } := congrArg Crew.ledger hv
  refine ⟨?_, ?_, ?_, hfits, by rw [hledger]; exact hsize⟩
  · rw [hv]
    exact hw.aside hkeeps (hw.sound.withRest _ _ _ _ _)
  · rw [hv]
    exact hm.aside hkeeps
  · rw [hv]
    exact ⟨hu.unarmed, hu.unblocked, hu.led, fun howes => (hu.settled howes).congr rfl rfl rfl rfl, hu.saved⟩

/-- **A beat that succeeds keeps a world in order.** -/
theorem act (hwired : machine.Wired) (h : Staged machine last w) (hx : w.workers[i]? = some x)
    (ha : Acts machine (.ofIndex i) w x x' v) :
    ∃ l, Staged machine (Function.update last (.ofIndex i) l) (v.withWorker i x') := by
  obtain ⟨rfl, rfl⟩ | ⟨l, mv, n, hown, hm, s, log, hv⟩ :=
    ha.moves hwired (h.fits i x hx) (h.place_eq hx)
  · refine ⟨last (.ofIndex i), ?_⟩
    rw [Function.update_eq_self, World.withWorker_self hx]
    exact h
  · have hcrew := World.crew_withWorker last ha.workers_eq (World.lt_size hx)
      h.size_le_nobody x' l
    rw [hv] at hcrew
    have hcap : n.table.capacity = w.ledger.table.capacity :=
      (hm.grows h.stationed h.undisturbed.unarmed hown).table.capacity_eq
    refine ⟨l, of_crew (hm.stationed h.stationed) (hm.marked (Cursor.stores hwired.role_lt)
      hwired.differ h.marked h.stationed) (hm.undisturbed h.stationed h.undisturbed hown) hcrew
      (fun j y hy => ?_) ?_⟩
    · obtain ⟨rfl, rfl⟩ | ⟨-, hy⟩ := World.of_workers_withWorker ha.workers_eq hy
      · exact ha.fits hwired (h.fits _ x hx)
      · exact h.fits j y hy
    · rw [World.withWorker, Array.size_setIfInBounds, ha.workers_eq]
      rw [hcap]
      exact h.size_le

/-- **What every beat of a world in order keeps, every row of beats keeps**, and the world stays in
order. -/
theorem of_beats {P : World σ π → Prop} (hwired : machine.Wired)
    (hact : ∀ last w i x x' v, Staged machine last w → P w → w.workers[i]? = some x →
      Acts machine (.ofIndex i) w x x' v → P (v.withWorker i x'))
    (h : Staged machine last w) (hw : P w) (hbeats : machine.beats is w = .ok () w') :
    (∃ last', Staged machine last' w') ∧ P w' := by
  refine Machine.of_beats (P := fun w => (∃ last, Staged machine last w) ∧ P w) (fun w w' i hw hbeat => ?_)
    ⟨⟨last, h⟩, hw⟩ hbeats
  obtain ⟨⟨last, h⟩, hw⟩ := hw
  obtain rfl | ⟨x, x', v, hx, hok, rfl⟩ := of_beat hbeat
  · exact ⟨⟨last, h⟩, hw⟩
  · have ha := acts_of_act (h.fits i x hx).not_due_wake hok
    obtain ⟨l, hl⟩ := h.act hwired hx ha
    exact ⟨⟨_, hl⟩, hact last w i x x' v h hw hx ha⟩

/-- No thread comes or goes. -/
theorem size_of_beats (hwired : machine.Wired) (h : Staged machine last w)
    (hbeats : machine.beats is w = .ok () w') : w'.workers.size = w.workers.size :=
  (h.of_beats (P := fun v => v.workers.size = w.workers.size) hwired
    (fun _ _ _ _ _ _ _ hsize _ ha => by
      rw [World.withWorker, Array.size_setIfInBounds, ha.workers_eq, hsize]) rfl hbeats).2

end Staged

end SoleRunner.Simulation
