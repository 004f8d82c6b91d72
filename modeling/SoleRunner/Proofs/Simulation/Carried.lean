import SoleRunner.Proofs.Custody
import SoleRunner.Proofs.Simulation.Staged

/-!
# Proofs/Simulation/Carried — the contexts that count, beat by beat

A thread of a world goes on with the context that it carries, and changes no other.  So what is said of
the contexts that count (`Crew.Custody`) stays true of them while a thread calls the arbiter, if the
arbiter's stamps do not touch it (`Acts.custody_of_call`); and a thread that runs on by itself has to
answer for its own context only (`Runs.custody`).
-/

namespace SoleRunner.Simulation

open Crew (Custody)
open Machine

variable {σ π : Type} {w v : World σ π} {machine : Machine σ π} {me u : ThreadId} {c : Cursor}
  {x x' : Worker} {last : ThreadId → Option (Resume Cursor)} {G G' : ThreadId → Cursor → Prop}

/-- Which answers resumed the threads says nothing about their contexts. -/
theorem World.custody_crew (h : Custody G (w.crew last)) (last' : ThreadId → Option (Resume Cursor)) :
    Custody G (w.crew last') := by
  have hplace u : (w.crew last').place u = (w.crew last).place u ∨
      ∃ c, (w.crew last').place u = .outside c (last' u) ∧ (w.crew last).place u = .outside c (last u) := by
    cases hx : w.worker? u with
    | none => exact .inl ((place_crew_of_none hx).trans (place_crew_of_none hx).symm)
    | some x =>
      rw [place_crew hx, place_crew hx]
      exact (x.place_eq_or _ _).imp_right fun h => ⟨x.cursor, h⟩
  refine ⟨fun u c l hp => ?_, fun u c hk hc => h.kept u c ⟨hk.waits.imp_right ?_, hk.unread⟩ hc⟩
  · obtain hsame | ⟨d, hd, hd'⟩ := hplace u
    · exact h.held u c l (hsame.symm.trans hp)
    · rw [hd] at hp
      cases hp
      exact h.held u c _ hd'
  · rintro ⟨b, hb⟩
    obtain hsame | ⟨d, hd, -⟩ := hplace u
    · exact ⟨b, hsame.symm.trans hb⟩
    · rw [hd] at hb
      nomatch hb

/-! ## Whose context a thread has in hand -/

namespace Staged

variable (hst : Staged machine last w)

include hst

/-- Without the executor's mark, a thread carries its own context. -/
theorem carried_of_unmarked (hwired : machine.Wired) {l : Option (Resume Cursor)}
    (hp : (w.crew last).place me = .outside c l) (hc : machine.role c = 0) :
    w.ledger.carried me = me := by
  by_cases he : me = w.ledger.executor
  · have ha := hst.undisturbed.alone_of_plain hst.marked hst.stationed hp (hwired.role c ▸ hc) he
    exact Ledger.carried_of_own ha.executor_eq.symm
  · exact Ledger.carried_of_ne he

/-- With it, a thread is the executor and carries the runner's. -/
theorem carried_of_marked (hwired : machine.Wired) {l : Option (Resume Cursor)}
    (hp : (w.crew last).place me = .outside c l) (hc : machine.role c ≠ 0) :
    me = w.ledger.executor ∧ w.ledger.carried me = w.ledger.runner := by
  obtain ⟨he, -⟩ := hst.marked.executor_of_mark hst.stationed hp (hwired.role c ▸ hc)
  exact ⟨he.symm, Ledger.carried_executor he.symm⟩

/-- Nobody who is away has its context carried by a thread in some code. -/
theorem carried_ne_away {l : Option (Resume Cursor)} (hp : (w.crew last).place me = .outside c l)
    (hu : (w.crew last).place u = .absent) : w.ledger.carried me ≠ u := by
  rintro rfl
  by_cases he : me = w.ledger.executor
  · rw [Ledger.carried_executor he] at hu
    have hn := hst.stationed.executor_runs (he ▸ hst.stationed.ne_nobody_of_outside hp)
    have hin := hst.stationed.sound.balanced.runner_inside hn
    by_cases hr : w.ledger.runner = me
    · rw [hr, hp] at hu
      nomatch hu
    · obtain ⟨b, hb⟩ := hst.stationed.waits _ hin (he ▸ hr)
      nomatch hu.symm.trans hb
  · rw [Ledger.carried_of_ne he, hp] at hu
    nomatch hu

end Staged

/-! ## Beats -/

namespace Machine

/-- A thread that runs on by itself is in some code, and stays there. -/
theorem Runs.places (h : Runs machine me w x x' v) (l : Option (Resume Cursor)) :
    x.place l = .outside x.cursor l ∧ x'.place l = .outside x'.cursor l := by
  cases h <;> exact ⟨rfl, rfl⟩

/-- What it does by itself touches nothing of the ledger but the scheduler's state. -/
theorem Runs.ledger_eq (h : Runs machine me w x x' v) :
    ∃ s, v.ledger = { w.ledger with schedulerState := s } := by
  cases h with
  | crashes => exact ⟨_, rfl⟩
  | decides => exact ⟨_, rfl⟩
  | _ => exact ⟨w.ledger.schedulerState, rfl⟩

/-- **A thread that runs on by itself answers for the context in its hand**; the others are left alone. -/
theorem Runs.custody (h : Runs machine me w x x' v) (hst : Staged machine last w)
    (hp : (w.crew last).place me = x.place (last me)) (hc : Custody G (w.crew last))
    (hown : G (w.ledger.carried me) x.cursor → G' (w.ledger.carried me) x'.cursor)
    (hother : ∀ u d, u ≠ w.ledger.carried me → G u d → G' u d) :
    ∃ l, Custody G' ((w.crew last).put v.ledger me (x'.place l)) := by
  have hout := hp.trans (h.places _).1
  have hnow := hc.compute hst.stationed hout (hown (hc.held me _ _ hout)) hother
  obtain ⟨s, hv⟩ := h.ledger_eq
  refine ⟨last me, ?_⟩
  rw [(h.places _).2, hv]
  exact hnow.aside (m := { w.ledger with schedulerState := s }) rfl rfl fun _ => rfl

/-- **A call of the arbiter leaves every context that counts alone**, but for the arbiter's stamps. -/
theorem Acts.custody_of_call (h : Acts machine me w x x' v) (hcall : ¬ Runs machine me w x x' v)
    (hst : Staged machine last w) (hleave : machine.arbiter.scheduler.LeavesContexts)
    (hG : machine.arbiter.Ignores G) (hp : (w.crew last).place me = x.place (last me))
    (hstart : x.stage = .due .start → G me x.cursor) (hc : Custody G (w.crew last)) :
    ∃ l, Custody G ((w.crew last).put v.ledger me (x'.place l)) := by
  have hw := hst.stationed
  have hb := hw.sound.balanced
  cases h with
  | start h => exact ⟨none, hc.start hw hG (hstart rfl) (h ▸ Arbiter.startThread_outcome ..)⟩
  | @arrive c a m h =>
    obtain ⟨l, hl⟩ := Worker.place_ofArrival c a
    refine ⟨l, ?_⟩
    rw [hl]
    exact hc.arrive hw hG hp (h ▸ Arbiter.arrive_outcome hb)
  | @depart c r m h => exact ⟨some r, hc.depart hw hG hleave hp (h ▸ Arbiter.depart_outcome hb)⟩
  | @switch c r m h => exact ⟨some r, hc.switch hw hG hp (h ▸ Arbiter.switch_outcome hb)⟩
  | finish h =>
    have hout := hc.finish hw hp (h ▸ Arbiter.endThread_outcome ..)
    exact ⟨none, hout.aside rfl rfl fun _ => rfl⟩
  | wake h => exact ⟨none, hc.wake hw hp⟩
  | @look c a m h =>
    obtain ⟨l, hl⟩ := Worker.place_ofArrival c a
    refine ⟨l, ?_⟩
    rw [hl]
    exact hc.look hw hG hp (h ▸ Arbiter.lookAgain_outcome hb)
  | runs h => exact absurd h hcall
  | rests =>
    refine ⟨last me, ?_⟩
    rw [← hp, ← World.ledger_crew w last, Crew.put_self]
    exact hc

end Machine

end SoleRunner.Simulation
