import SoleRunner.Proofs.Simulation.Boot
import SoleRunner.Proofs.Simulation.Carried
import SoleRunner.Proofs.Simulation.Recorded

/-!
# Proofs/Simulation/ExactlyOnce — every operation is computed once, in order, where it should be

A context goes from OS thread to OS thread, and old copies of it stay behind in the table.  Whatever the
policy decides, the copies that count know which operations of their program have been computed
(`Machine.Exact`): those below their place, each once and in order (`computed_exactly_once`).
-/

namespace SoleRunner

/-- The indices below `n` of the operations that are computed, in increasing order. -/
def Program.computesBelow (p : Program) (n : Nat) : List Nat :=
  (List.range n).filter fun k => p[k]? = some .compute

/-- The indices of all operations that are computed, in increasing order. -/
def Program.computes (p : Program) : List Nat := p.computesBelow p.length

namespace Program

variable {p : Program} {n : Nat}

theorem computesBelow_succ (p : Program) (n : Nat) :
    p.computesBelow (n + 1) = p.computesBelow n ++ if p[n]? = some .compute then [n] else [] := by
  rw [computesBelow, List.range_succ, List.filter_append]
  refine congrArg (p.computesBelow n ++ ·) ?_
  by_cases h : p[n]? = some .compute <;> simp [h]

/-- Past the end of a program there is nothing to compute. -/
theorem computesBelow_of_length_le (h : p.length ≤ n) : p.computesBelow n = p.computes := by
  obtain ⟨k, rfl⟩ := Nat.exists_eq_add_of_le h
  clear h
  induction k with
  | zero => rfl
  | succ k ih =>
    rw [← Nat.add_assoc, computesBelow_succ, List.getElem?_eq_none (Nat.le_add_right ..), if_neg nofun,
      List.append_nil, ih]

end Program

namespace Simulation

variable {σ π : Type} {w v : World σ π} {machine : Machine σ π} {me u : ThreadId} {c : Cursor}
  {x x' : Worker} {i : Nat} {last : ThreadId → Option (Resume Cursor)} {is : List Nat}

/-! ## What a history says -/

theorem History.computedBy_push (h : History) (s : Step) (act : Act) (u : ThreadId) :
    (History.report (h.push (s, act))).computedBy u =
      h.report.computedBy u ++ if act = .computed ∧ s.owner = u then [s.pc] else [] := by
  change (((History.computed (h.push (s, act))).filter fun s => s.owner = u).map Step.pc) = _
  rw [History.computed, Array.toList_push, List.filterMap_append, List.filter_append, List.map_append]
  refine congrArg (((h.computed.filter fun s => s.owner = u).map Step.pc) ++ ·) ?_
  by_cases hact : act = .computed
  · by_cases ho : s.owner = u <;> simp [hact, ho]
  · simp [hact]

namespace Machine

/-- The program of thread `u`. -/
def program (machine : Machine σ π) (u : ThreadId) : Program := machine.programs[u.index]?.getD []

theorem nextOp_eq (c : Cursor) : machine.nextOp c = (machine.program c.owner)[c.pc]? :=
  List.head?_drop

/-- **Cursor `c` is `u`'s, and what has been computed of `u`'s program is what lies below it.** -/
def Exact (machine : Machine σ π) (h : History) (u : ThreadId) (c : Cursor) : Prop :=
  c.owner = u ∧ h.report.computedBy u = (machine.program u).computesBelow c.pc

theorem ignores_exact (h : History) : machine.arbiter.Ignores (machine.Exact h) :=
  ⟨fun _ hc => hc, fun _ hc => hc⟩

/-- What is recorded of an operation of somebody else, or is no computation, does not matter. -/
theorem exact_push {h : History} {s : Step} {act : Act} (hs : act = .computed → s.owner ≠ u)
    (hc : machine.Exact h u c) : machine.Exact (h.push (s, act)) u c := by
  refine ⟨hc.1, ?_⟩
  rw [History.computedBy_push, if_neg fun h => hs h.1 h.2, List.append_nil]
  exact hc.2

/-- A step over an operation is exact, if a computation has been recorded. -/
theorem Exact.advance {h : History} {act : Act} (hc : machine.Exact h u c)
    (hop : machine.nextOp c = some (if act = .computed then .compute else .syscall)) :
    machine.Exact (h.push (⟨me, c.owner, c.pc⟩, act)) u c.advance := by
  obtain ⟨rfl, hcomputed⟩ := hc
  refine ⟨rfl, ?_⟩
  rw [nextOp_eq] at hop
  change _ = (machine.program c.owner).computesBelow (c.pc + 1)
  rw [History.computedBy_push, Program.computesBelow_succ, hop, hcomputed]
  by_cases hact : act = .computed <;> simp [hact]

/-- At the end of its program everything has been computed. -/
theorem Exact.of_nextOp_none {h : History} (hc : machine.Exact h u c) (hop : machine.nextOp c = none) :
    h.report.computedBy u = (machine.program u).computes := by
  obtain ⟨rfl, hcomputed⟩ := hc
  rw [nextOp_eq, List.getElem?_eq_none_iff] at hop
  rw [hcomputed, Program.computesBelow_of_length_le hop]

end Machine

/-! ## Contexts, beat by beat -/

open Crew (Custody)

namespace Machine

/-- What a thread does by itself leaves its own context exact. -/
theorem Runs.exact_own (h : Runs machine me w x x' v) (hc : machine.Exact w.history u x.cursor) :
    machine.Exact v.history u x'.cursor := by
  cases h with
  | computes hop => exact hc.advance hop
  | syscalls hop => exact hc.advance hop
  | decides => exact exact_push nofun hc
  | _ => exact hc

/-- It records nothing of others. -/
theorem Runs.exact_other (h : Runs machine me w x x' v) (hu : u ≠ x.cursor.owner)
    (hc : machine.Exact w.history u c) : machine.Exact v.history u c := by
  cases h with
  | computes => exact exact_push (fun _ ho => hu ho.symm) hc
  | syscalls => exact exact_push nofun hc
  | decides => exact exact_push nofun hc
  | _ => exact hc

/-- A call records no computation. -/
theorem Acts.exact_of_call (h : Acts machine me w x x' v) (hcall : ¬ Runs machine me w x x' v)
    (hc : machine.Exact w.history u c) : machine.Exact v.history u c := by
  cases h with
  | arrive => exact exact_push nofun hc
  | finish => exact exact_push nofun hc
  | runs h => exact absurd h hcall
  | _ => exact hc

/-- **A beat that succeeds leaves every context exact.** -/
theorem Acts.custody (h : Acts machine me w x x' v) (hst : Staged machine last w)
    (hleave : machine.arbiter.scheduler.LeavesContexts)
    (hp : (w.crew last).place me = x.place (last me))
    (hstart : x.stage = .due .start → machine.Exact w.history me x.cursor)
    (hc : Custody (machine.Exact w.history) (w.crew last)) :
    ∃ l, Custody (machine.Exact v.history) ((w.crew last).put v.ledger me (x'.place l)) := by
  by_cases hr : Runs machine me w x x' v
  · refine hr.custody hst hp hc hr.exact_own fun u d hu => hr.exact_other fun ho => hu ?_
    exact ho.trans (hc.held me _ _ (hp.trans (hr.places _).1)).1
  · obtain ⟨l, hl⟩ := h.custody_of_call hr hst hleave (machine.ignores_exact _) hp hstart hc
    exact ⟨l, hl.mono fun _ _ => h.exact_of_call hr⟩

end Machine

/-- **Every computed operation is accounted for**: by the contexts that count, and by the cursors of the
threads that have not started or have ended. -/
structure Accounted (machine : Machine σ π) (w : World σ π) : Prop where
  custody : ∀ last, Custody (machine.Exact w.history) (w.crew last)
  away : ∀ i x, w.workers[i]? = some x → x.stage = .due .start ∨ x.stage = .ended →
    machine.Exact w.history (.ofIndex i) x.cursor

open Machine

namespace Machine

/-- A beat records nothing of a thread that is away. -/
theorem Acts.exact_away (h : Acts machine me w x x' v) (hst : Staged machine last w)
    (hp : (w.crew last).place me = x.place (last me))
    (hc : Custody (machine.Exact w.history) (w.crew last))
    (hu : (w.crew last).place u = .absent) {d : Cursor} (hd : machine.Exact w.history u d) :
    machine.Exact v.history u d := by
  cases h with
  | arrive => exact exact_push nofun hd
  | finish => exact exact_push nofun hd
  | runs h =>
    cases h with
    | computes =>
      exact exact_push (fun _ ho => hst.carried_ne_away hp hu ((hc.held me _ _ hp).1.symm.trans ho)) hd
    | syscalls => exact exact_push nofun hd
    | decides => exact exact_push nofun hd
    | _ => exact hd
  | _ => exact hd

/-- Only an exit takes a thread away. -/
theorem Acts.exact_gone (h : Acts machine me w x x' v) (hwired : machine.Wired)
    (hst : Staged machine last w) (hfits : machine.Fits me x)
    (hp : (w.crew last).place me = x.place (last me))
    (hc : Custody (machine.Exact w.history) (w.crew last))
    (haway : x.stage = .ended → machine.Exact w.history me x.cursor)
    (hgone : x'.stage = .due .start ∨ x'.stage = .ended) : machine.Exact v.history me x'.cursor := by
  cases h with
  | finish =>
    have hown := hc.held me _ _ hp
    rw [World.ledger_crew, hst.carried_of_unmarked hwired hp hfits.1] at hown
    exact exact_push nofun hown
  | @arrive c a => cases a <;> simp [Worker.ofArrival] at hgone
  | @look c a => cases a <;> simp [Worker.ofArrival] at hgone
  | runs h => cases h <;> simp at hgone
  | rests hs =>
    refine haway (hgone.resolve_left fun h => ?_)
    rw [h] at hs
    simp at hs
  | _ => simp at hgone

end Machine

namespace Accounted

/-- **A beat that succeeds keeps everything accounted for.** -/
theorem act (hwired : machine.Wired) (hleave : machine.arbiter.scheduler.LeavesContexts)
    (hst : Staged machine last w) (h : Accounted machine w) (hx : w.workers[i]? = some x)
    (ha : Acts machine (.ofIndex i) w x x' v) : Accounted machine (v.withWorker i x') where
  custody last' := by
    obtain ⟨l, hl⟩ := ha.custody hst hleave (hst.place_eq hx) (fun hs => h.away i x hx (.inl hs))
      (h.custody last)
    rw [← World.crew_withWorker last ha.workers_eq (World.lt_size hx) hst.size_le_nobody] at hl
    exact World.custody_crew hl last'
  away j y hy hstage := by
    have habsent {y : Worker} (hy : w.workers[j]? = some y)
        (hstage : y.stage = .due .start ∨ y.stage = .ended) :
        (w.crew last).place (.ofIndex j) = .absent := by
      rw [hst.place_eq hy]
      obtain ⟨d, stage⟩ := y
      obtain rfl | rfl := hstage <;> rfl
    obtain ⟨rfl, rfl⟩ | ⟨-, hy⟩ := World.of_workers_withWorker ha.workers_eq hy
    · exact ha.exact_gone hwired hst (hst.fits _ x hx) (hst.place_eq hx) (h.custody last)
        (fun hs => h.away _ x hx (.inr hs)) hstage
    · exact ha.exact_away hst (hst.place_eq hx) (h.custody last) (habsent hy hstage) (h.away j y hy hstage)

end Accounted

/-! ## Whose cursor is where -/

/-- A thread has its cursor in hand, unless it waits for an answer of the arbiter. -/
def Worker.holds (x : Worker) : Bool := x.stage ≠ .asleep && x.stage ≠ .awake

/-- **The cursor at which `u`'s program stands**: the one that some OS thread has in hand, or else the one
that is saved. -/
def World.cursorOf (w : World σ π) (u : ThreadId) : Option Cursor :=
  match w.workers.find? fun x => x.holds && x.cursor.owner = u with
  | some x => some x.cursor
  | none => w.ledger.table.saved? u

/-- A thread that has a cursor in hand is in some code, or away. -/
theorem Worker.place_of_holds (hx : x.holds) (l : Option (Resume Cursor)) :
    x.place l = .outside x.cursor l ∨ x.place l = .absent ∧ (x.stage = .due .start ∨ x.stage = .ended) := by
  obtain ⟨c, stage⟩ := x
  cases stage with
  | due p =>
    cases p with
    | start => exact .inr ⟨rfl, .inl rfl⟩
    | _ => exact .inl rfl
  | asleep => cases hx
  | awake => cases hx
  | ended => exact .inr ⟨rfl, .inr rfl⟩
  | _ => exact .inl rfl

/-- A thread that waits is at its wake slot. -/
theorem Worker.place_of_not_holds (hx : x.holds = false) (l : Option (Resume Cursor)) :
    ∃ b, x.place l = .inside b := by
  obtain ⟨c, stage⟩ := x
  cases stage with
  | asleep => exact ⟨false, rfl⟩
  | awake => exact ⟨true, rfl⟩
  | _ => nomatch hx

/-- Whoever is in some code has the cursor of it in hand. -/
theorem World.holds_of_outside {l : Option (Resume Cursor)} (hp : (w.crew last).place u = .outside c l) :
    ∃ x, w.worker? u = some x ∧ x.holds := by
  cases hx : w.worker? u with
  | none => nomatch (place_crew_of_none hx).symm.trans hp
  | some x =>
    refine ⟨x, rfl, Bool.not_eq_false _ ▸ fun hh => ?_⟩
    obtain ⟨b, hb⟩ := x.place_of_not_holds hh (last u)
    nomatch (hb.symm.trans (place_crew hx).symm).trans hp

namespace Accounted

variable (hst : Staged machine last w) (h : Accounted machine w)

include hst h

/-- Whoever has a cursor in hand is in some code with what it carries, or away with its own. -/
theorem of_holds (hx : w.workers[i]? = some x) (hh : x.holds) :
    (w.crew last).place (.ofIndex i) = .outside x.cursor (last (.ofIndex i)) ∧
        x.cursor.owner = w.ledger.carried (.ofIndex i) ∨
      (w.crew last).place (.ofIndex i) = .absent ∧ x.cursor.owner = .ofIndex i := by
  have hp := hst.place_eq hx
  obtain hout | ⟨haway, hstage⟩ := Worker.place_of_holds hh (last (.ofIndex i))
  · exact .inl ⟨hp.trans hout, ((h.custody last).held _ _ _ (hp.trans hout)).1⟩
  · exact .inr ⟨hp.trans haway, (h.away i x hx hstage).1⟩

theorem exact_of_holds (hx : w.workers[i]? = some x) (hh : x.holds) :
    machine.Exact w.history x.cursor.owner x.cursor := by
  have hp := hst.place_eq hx
  obtain hout | ⟨-, hstage⟩ := Worker.place_of_holds hh (last (.ofIndex i))
  · have hheld := (h.custody last).held _ _ _ (hp.trans hout)
    exact hheld.1.symm ▸ hheld
  · have haway := h.away i x hx hstage
    exact haway.1.symm ▸ haway

/-- **No two OS threads have the same program in hand.** -/
theorem holder_unique {j : Nat} {y : Worker} (hx : w.workers[i]? = some x) (hy : w.workers[j]? = some y)
    (hxh : x.holds) (hyh : y.holds) (ho : x.cursor.owner = y.cursor.owner) : i = j := by
  have hindex (heq : ThreadId.ofIndex i = .ofIndex j) : i = j := by
    have hi := ThreadId.index_ofIndex (Nat.lt_of_lt_of_le (World.lt_size hx) hst.size_le_nobody)
    have hj := ThreadId.index_ofIndex (Nat.lt_of_lt_of_le (World.lt_size hy) hst.size_le_nobody)
    rw [← hi, heq, hj]
  obtain ⟨hpx, hox⟩ | ⟨hpx, hox⟩ := h.of_holds hst hx hxh <;>
    obtain ⟨hpy, hoy⟩ | ⟨hpy, hoy⟩ := h.of_holds hst hy hyh
  · exact hindex (hst.stationed.carried_inj hpx hpy (hox.symm.trans (ho.trans hoy)))
  · exact absurd (hox.symm.trans (ho.trans hoy)) (hst.carried_ne_away hpx hpy)
  · exact absurd (hoy.symm.trans (ho.symm.trans hox)) (hst.carried_ne_away hpy hpx)
  · exact hindex (hox.symm.trans (ho.trans hoy))

/-- A program that nobody has in hand is not what an executor runs. -/
theorem vacant_of_unheld
    (hno : ∀ (j : Nat) (y : Worker), w.workers[j]? = some y → y.holds → y.cursor.owner ≠ u)
    (hr : u = w.ledger.runner) : w.ledger.executor = .nobody := by
  refine Classical.byContradiction fun hne => ?_
  obtain ⟨c, l, hp⟩ := hst.stationed.executor_outside hne
  obtain ⟨x, hx, hh⟩ := World.holds_of_outside hp
  have hname : ThreadId.ofIndex w.ledger.executor.index = w.ledger.executor := ThreadId.ofIndex_index _
  obtain ⟨-, ho⟩ | ⟨haway, -⟩ := h.of_holds hst hx hh
  · refine hno _ x hx hh (ho.trans ?_)
    exact (Ledger.carried_executor hname).trans hr.symm
  · exact nomatch (congrArg (w.crew last).place hname ▸ haway).symm.trans hp

/-- The saved context of a program that nobody has in hand counts. -/
theorem keeps_of_unheld (hi : i < w.workers.size)
    (hno : ∀ (j : Nat) (y : Worker), w.workers[j]? = some y → y.holds →
      y.cursor.owner ≠ .ofIndex i) :
    (w.crew last).Keeps (.ofIndex i) ∧ ∃ c, w.ledger.table.saved? (.ofIndex i) = some c := by
  have hx : w.workers[i]? = some w.workers[i] := Array.getElem?_eq_getElem hi
  have hunread := h.vacant_of_unheld hst hno
  cases hh : w.workers[i].holds with
  | true =>
    obtain ⟨hp, ho⟩ | ⟨-, ho⟩ := h.of_holds hst hx hh
    · have he : ThreadId.ofIndex i = w.ledger.executor :=
        Classical.byContradiction fun hne => hno i _ hx hh (ho.trans (Ledger.carried_of_ne hne))
      have hn := hst.stationed.ne_nobody_of_outside hp
      obtain ⟨s, hs, hin⟩ := hst.stationed.sound.executor_inside (he ▸ hn)
      exact ⟨⟨.inl he, hunread⟩, he ▸ hst.stationed.sound.balanced.saved _ s hs hin⟩
    · exact absurd ho (hno i _ hx hh)
  | false =>
    obtain ⟨b, hb⟩ := Worker.place_of_not_holds hh (last (.ofIndex i))
    have hp := (hst.place_eq hx).trans hb
    exact ⟨⟨.inr ⟨b, hp⟩, hunread⟩, hst.undisturbed.saved _ b hp⟩

/-- **The cursor at which a program stands is exact.** -/
theorem exists_cursorOf (hi : i < w.workers.size) :
    ∃ c, w.cursorOf (.ofIndex i) = some c ∧ machine.Exact w.history (.ofIndex i) c := by
  rw [World.cursorOf]
  split
  next x hx =>
    obtain ⟨j, hj, rfl⟩ := Array.mem_iff_getElem.mp (Array.mem_of_find?_eq_some hx)
    have hheld := Array.find?_some hx
    rw [Bool.and_eq_true, decide_eq_true_eq] at hheld
    have hexact := h.exact_of_holds hst (Array.getElem?_eq_getElem hj) hheld.1
    exact ⟨_, rfl, hheld.2 ▸ hexact⟩
  next hnone =>
    obtain ⟨hkeeps, c, hc⟩ := h.keeps_of_unheld hst hi fun j y hy hh ho => by
      obtain ⟨hj, rfl⟩ := Array.getElem?_eq_some_iff.mp hy
      have hnot := Array.find?_eq_none.mp hnone _ (Array.getElem_mem hj)
      rw [Bool.and_eq_true, decide_eq_true_eq] at hnot
      exact hnot ⟨hh, ho⟩
    exact ⟨c, hc, (h.custody last).kept _ c hkeeps hc⟩

end Accounted

/-! ## What is recorded -/

/-- **A thread records a computation as the executor, and a system call or its exit as the owner of its
context.** -/
theorem Accounted.history_of_beat (hwired : machine.Wired) (hst : Staged machine last w)
    (h : Accounted machine w) (i : Nat) :
    (World.after (machine.beat i w)).history = w.history ∨
    ∃ s act, (World.after (machine.beat i w)).history = w.history.push (s, act) ∧
      s.osThread = .ofIndex i ∧
      (act = .computed → s.osThread = w.ledger.executor ∧ s.owner = w.ledger.runner) ∧
      (act = .syscalled ∨ act = .ended → s.owner = s.osThread) := by
  refine (records_of_beat machine i w).imp_right fun ⟨x, act, hx, hrec, hpush⟩ => ?_
  have hcarried {l : Option (Resume Cursor)}
      (hp : (w.crew last).place (.ofIndex i) = .outside x.cursor l) :
      x.cursor.owner = w.ledger.carried (.ofIndex i) := ((h.custody last).held _ _ _ hp).1
  have hplace := hst.place_eq hx
  refine ⟨_, act, hpush, rfl, ?_, ?_⟩
  · rintro rfl
    cases hrec with
    | computed hrole =>
      obtain ⟨he, hrunner⟩ := hst.carried_of_marked hwired hplace hrole
      exact ⟨he, (hcarried hplace).trans hrunner⟩
  · rintro (rfl | rfl)
    · cases hrec with
      | syscalled hrole => exact (hcarried hplace).trans (hst.carried_of_unmarked hwired hplace hrole)
    · cases hrec with
      | ended =>
        exact (hcarried hplace).trans (hst.carried_of_unmarked hwired hplace (hst.fits i _ hx).1)

/-! ## Runs -/

variable {asked : CodeUnit → List Placement} {initial : Rotation} {config : Config}
  {policy : Policy Rotation π} {p : π} {programs : List Program} {machine : Machine Rotation π}
  {w₀ w : World Rotation π}

/-- Before the first beat nobody has a context in hand. -/
theorem custody_of_boot {G : ThreadId → Cursor → Prop}
    (h : boot (Rotation.placing asked) initial config policy p programs = .ok (machine, w₀)) :
    Custody G (w₀.crew fun _ => none) := by
  rw [crew_of_boot h]
  obtain ⟨hc, plans, stats, log, rfl, rfl⟩ := of_boot h
  have hsound := Ledger.sound_fresh (C := Cursor) ((config.problem?_eq_none_iff.mp hc).2) initial
  refine Crew.custody_new _ rfl ?_
  exact Option.bind_eq_none_iff.mpr fun slot hslot =>
    nomatch (Table.slot?_eq_none_iff.mpr hsound.balanced.nobody_unknown).symm.trans hslot

/-- Before the first beat nothing has been computed, and all cursors are at their start. -/
theorem accounted_of_boot
    (h : boot (Rotation.placing asked) initial config policy p programs = .ok (machine, w₀)) :
    Accounted machine w₀ where
  custody _ := World.custody_crew (custody_of_boot h) _
  away i x hx _ := by
    obtain ⟨-, rfl⟩ := (workers_of_boot h).mp hx
    obtain ⟨-, plans, stats, log, rfl, rfl⟩ := of_boot h
    exact ⟨rfl, rfl⟩

theorem program_of_boot
    (h : boot (Rotation.placing asked) initial config policy p programs = .ok (machine, w₀))
    (hlen : programs.length ≤ config.capacity) {i : Nat} (hi : i < programs.length) :
    machine.program (.ofIndex i) = programs[i]?.getD [] := by
  have hcap := (staged_of_boot h hlen).size_le_nobody
  rw [size_of_boot h] at hcap
  obtain ⟨-, plans, stats, log, rfl, rfl⟩ := of_boot h
  rw [program, ThreadId.index_ofIndex (Nat.lt_of_lt_of_le hi hcap), List.getElem?_toArray]

/-- **Every operation is computed once, in order, where it should be.**  The rotation schedules a machine
with valid switch points and any policy.  After any row of beats: every program stands at a cursor of its
own, no two OS threads have the same one in hand, and what has been computed of the program are the
operations to compute below that cursor, each once and in order; all of them, once its thread has ended.
Whatever beat comes next, it computes only on the executor's OS thread, as the runner, and a system call
or an exit is made only on the OS thread whose program it belongs to. -/
theorem computed_exactly_once
    (h : boot (Rotation.placing asked) initial config policy p programs = .ok (machine, w₀))
    (hlen : programs.length ≤ config.capacity) (hbeats : machine.beats is w₀ = .ok () w) :
    (∀ i q, programs[i]? = some q →
      (∃ c, w.cursorOf (.ofIndex i) = some c ∧ c.owner = .ofIndex i ∧
        w.history.report.computedBy (.ofIndex i) = q.computesBelow c.pc) ∧
      ∀ x, w.workers[i]? = some x → x.stage = .ended →
        w.history.report.computedBy (.ofIndex i) = q.computes) ∧
    (∀ (i j : Nat) (x y : Worker), w.workers[i]? = some x → w.workers[j]? = some y → x.holds → y.holds →
      x.cursor.owner = y.cursor.owner → i = j) ∧
    ∀ i, (World.after (machine.beat i w)).history = w.history ∨
      ∃ s act, (World.after (machine.beat i w)).history = w.history.push (s, act) ∧
        s.osThread = .ofIndex i ∧
        (act = .computed → s.osThread = w.ledger.executor ∧ s.owner = w.ledger.runner) ∧
        (act = .syscalled ∨ act = .ended → s.owner = s.osThread) := by
  have hwired := wired_of_boot h
  have hst₀ := staged_of_boot h hlen
  have hleave : machine.arbiter.scheduler.LeavesContexts := by
    obtain ⟨-, plans, stats, log, rfl, rfl⟩ := of_boot h
    exact fun _ _ _ => rfl
  obtain ⟨⟨last, hst⟩, hacc⟩ := hst₀.of_beats (P := Accounted machine) hwired
    (fun last w i x x' v hst hacc hx ha => hacc.act hwired hleave hst hx ha) (accounted_of_boot h) hbeats
  have hsize : w.workers.size = programs.length :=
    (hst₀.size_of_beats hwired hbeats).trans (size_of_boot h)
  refine ⟨fun i q hq => ?_, fun i j x y hx hy hxh hyh ho => hacc.holder_unique hst hx hy hxh hyh ho,
    hacc.history_of_beat hwired hst⟩
  have hi : i < w.workers.size := hsize ▸ (List.getElem?_eq_some_iff.mp hq).1
  have hprogram : machine.program (.ofIndex i) = q := by
    rw [program_of_boot h hlen (hsize ▸ hi), hq]
    rfl
  refine ⟨?_, fun x hx hended => ?_⟩
  · obtain ⟨c, hc, howner, hcomputed⟩ := hacc.exists_cursorOf hst hi
    exact ⟨c, hc, howner, hprogram ▸ hcomputed⟩
  · have hfits := hst.fits i x hx
    rw [Fits, hended] at hfits
    rw [(hacc.away i x hx (.inr hended)).of_nextOp_none hfits, hprogram]

/-- The second of two threads has ended, and its operation has been computed by the first one's OS
thread. -/
theorem computed_exactly_once_pair :
    ∃ (machine : Machine Rotation Unit) (w₀ w : World Rotation Unit),
      boot Rotation.scheduler {} { capacity := 2 } Policy.rotate () pair = .ok (machine, w₀) ∧
      machine.beats (List.replicate 13 [0, 1]).flatten w₀ = .ok () w ∧
      w.history.report.steps = [⟨⟨0⟩, ⟨0⟩, 0⟩, ⟨⟨0⟩, ⟨1⟩, 0⟩, ⟨⟨0⟩, ⟨0⟩, 1⟩] ∧
      w.history.report.computedBy (.ofIndex 1) = Program.computes [.compute] := by
  have hafter : (pairAfter 13).any fun w => (w.workers[1]?.map Worker.stage = some .ended) ∧
      w.history.report.steps = [⟨⟨0⟩, ⟨0⟩, 0⟩, ⟨⟨0⟩, ⟨1⟩, 0⟩, ⟨⟨0⟩, ⟨0⟩, 1⟩] := by decide +kernel
  obtain ⟨w, hw, hchecked⟩ := (Option.any_eq_true _ _).mp hafter
  obtain ⟨hended, hsteps⟩ := of_decide_eq_true hchecked
  obtain ⟨x, hx, hstage⟩ := Option.map_eq_some_iff.mp hended
  obtain ⟨machine, w₀, hboot, hbeats⟩ := of_pairAfter hw
  obtain ⟨hcomputed, -⟩ := computed_exactly_once hboot (by decide) hbeats
  exact ⟨machine, w₀, w, hboot, hbeats, hsteps, (hcomputed 1 _ rfl).2 x hx hstage⟩

end Simulation

end SoleRunner
