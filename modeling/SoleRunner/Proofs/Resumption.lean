import SoleRunner.Host
import SoleRunner.Proofs.AnyRun
import SoleRunner.Proofs.Custody
import SoleRunner.Proofs.SingleRunner

/-!
# Proofs/Resumption — what an OS thread is resumed with

A handler that resumes its caller hands out one of two things: the saved context of the runner, with the
marks of an executor, to the thread that is now the executor; or the caller's own, without them, once the
caller is out of the program or owes its uncapture (`Arbiter.Honours`).  Each handler honours this by the
list of its ends, and `resumes_honoured` says so of every ledger that a new arbiter can come to, whoever
calls what.
-/

namespace SoleRunner

/-- **Contexts store register `r` faithfully**: it can be read back, and neither it nor the others change
when another one is written. -/
structure Context.Faithful (C : Type) [Context C] (r : Register) : Prop extends Context.Stores C r where
  reg_setReg_other : ∀ (c : C) (r' : Register) (v : UInt64), r' ≠ r →
    Context.reg (Context.setReg c r v) r' = Context.reg c r'

theorem Cursor.faithful {r : Register} (h : r.slot.toNat < 4) : Context.Faithful Cursor r where
  toStores := Cursor.stores h
  reg_setReg_other c r' v hne := by
    have hslot : r.slot.toNat ≠ r'.slot.toNat := fun e =>
      hne (congrArg Register.mk (UInt16.toNat_inj.mp e)).symm
    change (c.regs.setIfInBounds r.slot.toNat v)[r'.slot.toNat]?.getD 0 = c.reg r'
    rw [Vector.getElem?_setIfInBounds_ne hslot]
    rfl

namespace Arbiter

open Critical Ledger

variable {C σ : Type} [Context C] {arb : Arbiter C σ} {m m' : Ledger C σ} {tid u : ThreadId}
  {c d x : C} {r : Resume C}

/-! ## The two marks -/

/-- The marks of an arbiter can be told apart, and are stored faithfully. -/
structure Legible (arb : Arbiter C σ) : Prop where
  role : Context.Faithful C arb.roleReg
  choice : Context.Faithful C arb.choiceReg
  ne : arb.roleReg ≠ arb.choiceReg

/-- **`c` is `x` with these two marks**, and nothing else has been written to it. -/
structure Stamped (arb : Arbiter C σ) (x : C) (role choice : UInt64) (c : C) : Prop where
  written : c = Context.setReg (Context.setReg x arb.roleReg role) arb.choiceReg choice
  role_eq : Context.reg c arb.roleReg = role
  choice_eq : Context.reg c arb.choiceReg = choice
  others : ∀ r, r ≠ arb.roleReg → r ≠ arb.choiceReg → Context.reg c r = Context.reg x r

theorem Legible.stamped (h : arb.Legible) (x : C) (role choice : UInt64) :
    arb.Stamped x role choice
      (Context.setReg (Context.setReg x arb.roleReg role) arb.choiceReg choice) where
  written := rfl
  role_eq := by rw [h.role.reg_setReg_of_ne _ _ _ h.ne.symm, h.role.reg_setReg]
  choice_eq := h.choice.reg_setReg _ _
  others r hrole hchoice := by
    rw [h.choice.reg_setReg_other _ _ _ hchoice, h.role.reg_setReg_other _ _ _ hrole]

/-! ## What a handler hands out -/

/-- **What `tid` is to be resumed with**, if `m` is the ledger that its handler left and `x` is what was
saved for the resumed thread before it was stamped. -/
inductive Honours (arb : Arbiter C σ) (tid : ThreadId) (x : C) (m : Ledger C σ) (r : Resume C) : Prop
  /-- `tid` is the executor and goes on with the runner's context. -/
  | executes (role : r.role = .executor) (executor : m.executor = tid) (runner : r.tid = m.runner)
      (running : m.table.state? r.tid = some .running) (kept : m.table.saved? r.tid = some r.context)
      (stamped : arb.Stamped x 1 r.tid.toReg r.context)
  /-- `tid` goes on with its own context: out of the program, or in a system call that it entered
  alone. -/
  | leaves (role : r.role = .uncaptured) (own : r.tid = tid)
      (outside : m.table.Outside tid ∨
        m.table.state? tid = some .running ∧ m.executor = tid ∧ m.owesUncapture = true)
      (kept : m.table.saved? r.tid = some r.context)
      (stamped : arb.Stamped x 0 0xFFFFFFFFFFFFFFFF r.context)

/-- Resuming the running thread honours the executor. -/
theorem honours_runner (h : arb.Legible) (he : m.executor = tid)
    (hrun : m.table.state? m.runner = some .running) (x : C) :
    Honours arb tid x (m.withSaved m.runner (arb.stampExecutor m.runner x))
      ⟨m.runner, .executor, arb.stampExecutor m.runner x⟩ := by
  refine .executes rfl he rfl ?running ?kept (h.stamped ..)
  case running => exact Table.state?_save.trans hrun
  case kept => exact Table.saved?_save_self hrun

/-- Resuming the caller honours it once it is outside. -/
theorem honours_outside (h : arb.Legible) (hout : m.table.Outside tid) (x : C) :
    Honours arb tid x (m.withSaved tid (arb.stampPlain x)) ⟨tid, .uncaptured, arb.stampPlain x⟩ := by
  refine .leaves rfl rfl (.inl ?out) ?kept (h.stamped ..)
  case out => exact outside_withSaved.mpr hout
  case kept => exact Table.saved?_save_self hout

/-- Resuming the caller honours it while it owes its uncapture. -/
theorem honours_owing (h : arb.Legible) (hrun : m.table.state? tid = some .running)
    (he : m.executor = tid) (ho : m.owesUncapture = true) (x : C) :
    Honours arb tid x (m.withSaved tid (arb.stampPlain x)) ⟨tid, .uncaptured, arb.stampPlain x⟩ := by
  refine .leaves rfl rfl (.inr ⟨?running, he, ho⟩) ?kept (h.stamped ..)
  case running => exact Table.state?_save.trans hrun
  case kept => exact Table.saved?_save_self hrun

/-! ## Each handler -/

/-- The context of `u` that a call finds or brings along, edited by the scheduler if it was asked who is
to run instead of `u`. -/
def unstamped (arb : Arbiter C σ) (m : Ledger C σ) (u : ThreadId) : Call C → Option C
  | .arrive tid c => if u = tid then some c else m.table.saved? u
  | .depart _ c =>
    if u = m.runner then
      some (if 2 ≤ m.captured then (arb.scheduler.choose u c m.schedulerState).2.1 else c)
    else m.table.saved? u
  | _ => m.table.saved? u

theorem Settles.honours (h : arb.Legible) (hb : m.table.Balanced m.captured m.runner)
    (ho : Settles arb tid m (.ok (.resumed r) m')) :
    ∃ x, m.table.saved? r.tid = some x ∧ Honours arb tid x m' r := by
  cases ho with
  | @paid d d' x next s l howes he hn hr hd ha hnext hx =>
    refine ⟨x, hx, honours_runner (m := ((m.replaced next d' s).debtPaid l).ledBy tid l) h rfl ?_ x⟩
    exact state?_replaced_next (s := s) (hb.ne_runner_of_idle hnext) hnext
  | @took x log howes he hr hx =>
    exact ⟨x, hx, honours_runner (m := m.ledBy tid log) h rfl (hb.runner_running hr) x⟩

theorem Arrives.honours (h : arb.Legible) (hb : m.table.Balanced m.captured m.runner)
    (ho : Arrives arb tid c m (.ok (.resumed r) m')) :
    ∃ x, arb.unstamped m r.tid (.arrive tid c) = some x ∧ Honours arb tid x m' r := by
  cases ho with
  | @returned log hrun he hn =>
    obtain rfl := hb.runner_eq_of_running hrun
    exact ⟨c, if_pos rfl, honours_runner (m := m.cleared log) h he hrun c⟩
  | joined hs hset =>
    obtain ⟨x, hx, hr⟩ := hset.honours h (entered_balanced hb arb.scheduler c hs)
    refine ⟨x, ?_, hr⟩
    rcases eq_or_ne r.tid tid with hown | hother
    · rw [hown, saved?_entered_self hs] at hx
      exact (if_pos hown).trans hx
    · rw [saved?_entered_of_ne hother] at hx
      exact (if_neg hother).trans hx

theorem Looks.honours (h : arb.Legible) (hb : m.table.Balanced m.captured m.runner)
    (ho : Looks arb tid m (.ok (.resumed r) m')) :
    ∃ x, m.table.saved? r.tid = some x ∧ Honours arb tid x m' r := by
  cases ho with
  | @released c log hs hc => exact ⟨c, hc, honours_outside (m := m.logged log) h hs c⟩
  | @took s x log hs hne he hr hx =>
    exact ⟨x, hx, honours_runner (m := m.ledBy tid log) h rfl (hb.runner_running hr) x⟩

theorem Departs.honours (h : arb.Legible) (hb : m.table.Balanced m.captured m.runner)
    (ho : Departs arb tid c m (.ok r m')) :
    ∃ x, arb.unstamped m r.tid (.depart tid c) = some x ∧ Honours arb tid x m' r := by
  cases ho with
  | @shipped d x next s log he hr hne hn ha hnext hx =>
    have hother := hb.ne_runner_of_idle hnext
    refine ⟨x, (if_neg hother).trans hx,
      honours_runner (m := (m.replaced next d s).shipped m.runner log) h he ?_ x⟩
    exact state?_replaced_next (s := s) hother hnext
  | @handedOver d next s log he hr htid hn ha hnext =>
    subst hr
    refine ⟨d, ?_, honours_outside (m := (m.replaced next d s).handedOver log) h ?_ d⟩
    · rw [unstamped, if_pos rfl, if_pos hn, ha]
    · exact state?_replaced_runner (s := s) (hb.ne_runner_of_idle hnext) (hb.runner_running htid)
  | @owed log he hr htid hn howes =>
    subst hr
    refine ⟨c, ?_, honours_owing (m := m.owing log) h (hb.runner_running htid) he rfl c⟩
    rw [unstamped, if_pos rfl, if_neg (Nat.not_le.mpr hn)]

theorem Switches.honours (h : arb.Legible) (ho : Switches arb tid c m (.ok r m')) :
    ∃ x, arb.unstamped m r.tid (.switch tid c) = some x ∧ Honours arb tid x m' r := by
  cases ho with
  | @switched x log hcheck hr hx =>
    obtain ⟨-, he, hne, hidle⟩ := of_checkSwitch hcheck
    refine ⟨x, hx, honours_runner (m := m.switched (arb.decision c) (arb.stampPlain c) log) h he ?_ x⟩
    exact state?_switched_next hne hidle

/-! ## Any call -/

/-- **A call that resumes its caller honours it.** -/
theorem perform_honours (h : arb.Legible) (hb : m.table.Balanced m.captured m.runner) {call : Call C}
    (hcall : arb.perform call m = .ok (.resumed r) m') :
    ∃ x, arb.unstamped m r.tid call = some x ∧ Honours arb (Host.caller call) x m' r := by
  cases call with
  | arrive tid c =>
    obtain ⟨a, ha, hreply⟩ := of_answer hcall
    cases a with
    | resumed r' =>
      cases hreply
      exact Arrives.honours h hb (ha ▸ arrive_outcome hb)
    | waiting => nomatch hreply
  | depart tid c =>
    obtain ⟨r', hr, hreply⟩ := of_answer hcall
    cases hreply
    exact Departs.honours h hb (hr ▸ depart_outcome hb)
  | switch tid c =>
    obtain ⟨r', hr, hreply⟩ := of_answer hcall
    cases hreply
    exact Switches.honours h (hr ▸ switch_outcome hb)
  | start | finish | plan | armBlock | block | unblock | readRegister | writeRegister | copyContext
  | replaceContext =>
    -- these answer something else
    obtain ⟨_, -, hreply⟩ := of_answer hcall
    nomatch hreply

variable {scheduler : Scheduler C σ} {initial : σ} {config : Config} {setup setup' : Setup C σ}

/-- **Whoever is resumed is resumed as it should be.**  Let contexts store the two marks of a new arbiter
faithfully.  After any events, a call of `tid` that resumes it, and a look of `tid` that does, hand out
the runner's context with the marks of an executor, and `tid` is the executor, or its own context without
them, and it is out of the program or owes its uncapture; what is handed out is what stays saved. -/
theorem resumes_honoured (h : create scheduler initial config setup = .ok (arb, m) setup')
    (hrole : Context.Faithful C arb.roleReg) (hchoice : Context.Faithful C arb.choiceReg)
    (es : List (Event C σ)) (tid : ThreadId) :
    (∀ call r m', Host.caller call = tid →
      arb.perform call (arb.follow m es) = .ok (.resumed r) m' →
      ∃ x, arb.unstamped (arb.follow m es) r.tid call = some x ∧ Honours arb tid x m' r) ∧
    ∀ r m', arb.lookAgain tid (arb.follow m es) = .ok (.resumed r) m' →
      ∃ x, (arb.follow m es).table.saved? r.tid = some x ∧ Honours arb tid x m' r := by
  obtain ⟨-, -, hne, -⟩ := of_create_ok h
  have hlegible : arb.Legible := ⟨hrole, hchoice, hne⟩
  have hb := (arb.sound_foldl es (sound_of_create h)).balanced
  constructor
  · rintro call r m' rfl hcall
    exact perform_honours hlegible hb hcall
  · intro r m' hlook
    exact Looks.honours hlegible hb (hlook ▸ lookAgain_outcome hb)

/-- The first of two threads switches to the second one and comes to a system call of it: the first goes
on as the executor, of its own code, and the second with its own context. -/
theorem resumes_honoured_rotation :
    ∃ (es : List (Event Cursor Rotation)) (c x y : Cursor) (r q : Resume Cursor)
      (m n : Ledger Cursor Rotation),
      twoSlots.depart ⟨0⟩ c (twoSlots.follow (.fresh 2 {}) es) = .ok r m ∧
      r.role = .executor ∧ Honours twoSlots ⟨0⟩ x m r ∧
      twoSlots.lookAgain ⟨1⟩ (twoSlots.follow (.fresh 2 {}) (es ++ [.call (.depart ⟨0⟩ c)])) =
        .ok (.resumed q) n ∧
      q.role = .uncaptured ∧ Honours twoSlots ⟨1⟩ y n q := by
  obtain ⟨setup, h⟩ := create_twoSlots
  obtain ⟨es, c, r, q, m, n, hdepart, hrole, hlook, hrole'⟩ :
      ∃ (es : List (Event Cursor Rotation)) (c : Cursor) (r q : Resume Cursor)
        (m n : Ledger Cursor Rotation),
        twoSlots.depart ⟨0⟩ c (twoSlots.follow (.fresh 2 {}) es) = .ok r m ∧ r.role = .executor ∧
        twoSlots.lookAgain ⟨1⟩ (twoSlots.follow (.fresh 2 {}) (es ++ [.call (.depart ⟨0⟩ c)])) =
          .ok (.resumed q) n ∧ q.role = .uncaptured :=
    ⟨[.call (.start ⟨0⟩ (.start ⟨0⟩)), .call (.arrive ⟨0⟩ (.start ⟨0⟩)),
      .call (.start ⟨1⟩ (.start ⟨1⟩)), .call (.arrive ⟨1⟩ (.start ⟨1⟩)),
      .call (.switch ⟨0⟩ (((Cursor.start ⟨0⟩).setReg ⟨0⟩ 1).setReg ⟨1⟩ 1)), .think ⟨[⟨0⟩]⟩],
      .start ⟨1⟩, _, _, _, _, rfl, rfl, rfl, rfl⟩
  have hcall : twoSlots.perform (.depart ⟨0⟩ c) (twoSlots.follow (.fresh 2 {}) es) =
      .ok (.resumed r) m := by
    rw [perform, bind_of_ok hdepart]
    rfl
  have hmark : Context.Faithful Cursor twoSlots.roleReg := Cursor.faithful (by decide)
  have hmark' : Context.Faithful Cursor twoSlots.choiceReg := Cursor.faithful (by decide)
  obtain ⟨hcalls, -⟩ := resumes_honoured h hmark hmark' es ⟨0⟩
  obtain ⟨x, -, hx⟩ := hcalls (.depart ⟨0⟩ c) r m rfl hcall
  obtain ⟨-, hlooks⟩ := resumes_honoured h hmark hmark' (es ++ [.call (.depart ⟨0⟩ c)]) ⟨1⟩
  obtain ⟨y, -, hy⟩ := hlooks q n hlook
  exact ⟨es, c, x, y, r, q, m, n, hdepart, hrole, hx, hlook, hrole', hy⟩

end Arbiter

end SoleRunner
