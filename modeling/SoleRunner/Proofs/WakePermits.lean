import Mathlib.Data.Finset.Card
import Mathlib.Data.Finset.Insert
import SoleRunner.WakeSlot

/-!
# Proofs/WakePermits — a wake slot loses no permit

A post stores its permit and makes its wake-up call in two steps, and the owner looks at the word and goes
to sleep in two steps, so that the steps of many posts can fall between those of the owner.  Two facts
survive every step (`WakeSlot.Kept`): the word is 0 or 1, and the owner sleeps beside a permit only while a
wake-up call is due.  Moreover each step balances the permits (`Does.balance`): what was stored has been
taken by a wait that returned, or was merged into a permit that was there, or is still there.

A `WakeSlot` only counts the posts that have stored and not yet called.  Here those who post have names
(`WakeSlot.Scene`), any number of them, each posting as often as it likes; the count is the number of
names.

A whole call is a run of steps, too.  Where no two calls overlap, what is left is a flag: a wait takes the
permit or ends asleep, and a post wakes the owner or is kept, once.
-/

namespace SoleRunner

namespace WakeSlot

variable {s s' : WakeSlot} {e : Event} {es : List Event}

/-! ## What a step does -/

/-- **What each event does at a slot**, and when it can happen. -/
inductive Does (s : WakeSlot) : Event → WakeSlot → Prop where
  | begins (h : s.waiter = .away) : Does s .begin { s with waiter := .polling s.spins }
  | takes {left : Nat} (h : s.waiter = .polling left) (hw : s.word = 1) :
      Does s .attempt { s with word := 0, waiter := .away }
  | misses {left : Nat} (h : s.waiter = .polling (left + 1)) (hw : s.word ≠ 1) :
      Does s .attempt { s with waiter := .polling left }
  | tires (h : s.waiter = .polling 0) (hw : s.word ≠ 1) : Does s .attempt { s with waiter := .drowsy }
  | sleeps (h : s.waiter = .drowsy) (hw : s.word = 0) : Does s .doze { s with waiter := .asleep }
  | rouses (h : s.waiter = .drowsy) (hw : s.word ≠ 0) :
      Does s .doze { s with waiter := .polling s.spins }
  | stirs (h : s.waiter = .asleep) : Does s .stir { s with waiter := .polling s.spins }
  | stores : Does s .store { s with word := 1, callsDue := s.callsDue + 1 }
  | wakes {due : Nat} (hd : s.callsDue = due + 1) (h : s.waiter = .asleep) :
      Does s .call { s with waiter := .polling s.spins, callsDue := due }
  | calls {due : Nat} (hd : s.callsDue = due + 1) (h : s.waiter ≠ .asleep) :
      Does s .call { s with callsDue := due }

theorem does_of_step (h : s.step e = some s') : s.Does e s' := by
  cases e with
  | begin =>
    obtain ⟨haway, h⟩ := Option.ite_none_right_eq_some.mp h
    cases h
    exact .begins haway
  | attempt =>
    rw [step] at h
    split at h
    next left hpoll =>
      split at h
      next hw =>
        cases h
        exact .takes hpoll hw
      next hw =>
        cases left with
        | zero =>
          cases h
          exact .tires hpoll hw
        | succ left =>
          cases h
          exact .misses hpoll hw
    next => cases h
  | doze =>
    obtain ⟨hdrowsy, h⟩ := Option.ite_none_right_eq_some.mp h
    split at h
    next hw =>
      cases h
      exact .sleeps hdrowsy hw
    next hw =>
      cases h
      exact .rouses hdrowsy hw
  | stir =>
    obtain ⟨hasleep, h⟩ := Option.ite_none_right_eq_some.mp h
    cases h
    exact .stirs hasleep
  | store =>
    cases h
    exact .stores
  | call =>
    rw [step] at h
    split at h
    next => cases h
    next due hd =>
      split at h
      next hasleep =>
        cases h
        exact .wakes hd hasleep
      next hawake =>
        cases h
        exact .calls hd hawake

theorem of_steps_cons (h : s.steps (e :: es) = some s') :
    ∃ t, s.step e = some t ∧ t.steps es = some s' := Option.bind_eq_some_iff.mp h

/-- **A wait returns only by taking a permit itself.** -/
theorem Does.takes_of_return (hd : s.Does e s') (hwaits : s.waiter ≠ .away) (haway : s'.waiter = .away) :
    e = .attempt ∧ s.word = 1 ∧ s'.word = 0 := by
  cases hd with
  | takes _ hw => exact ⟨rfl, hw, rfl⟩
  | stores | calls _ _ => exact absurd haway hwaits
  | begins | misses | tires | sleeps | rouses | stirs | wakes => cases haway

/-! ## What every step keeps -/

/-- **What holds at a slot between any two steps.** -/
structure Kept (s : WakeSlot) : Prop where
  word_eq : s.word = 0 ∨ s.word = 1
  /-- The owner sleeps beside a permit only while somebody is about to call it. -/
  due_pos : s.waiter = .asleep → s.word = 1 → 0 < s.callsDue

theorem Kept.does (hk : s.Kept) (hd : s.Does e s') : s'.Kept := by
  cases hd with
  | begins | misses | tires | rouses | stirs | wakes =>
    exact ⟨hk.word_eq, nofun⟩
  | takes => exact ⟨.inl rfl, nofun⟩
  | sleeps _ hw =>
    refine ⟨.inl hw, fun _ hone => ?_⟩
    rw [show s.word = 1 from hone] at hw
    nomatch hw
  | stores => exact ⟨.inr rfl, fun _ _ => Nat.succ_pos _⟩
  | calls _ hawake => exact ⟨hk.word_eq, fun hasleep => absurd hasleep hawake⟩

/-! ## The balance of permits -/

/-- How many steps of a run are as `p` says, which looks at the slot before and after. -/
def tally (p : WakeSlot → Event → WakeSlot → Bool) (s : WakeSlot) : List Event → Nat
  | [] => 0
  | e :: es =>
    match s.step e with
    | some s' => (p s e s').toNat + s'.tally p es
    | none => 0

/-- A wait returns in this step. -/
def returns (s : WakeSlot) (_ : Event) (s' : WakeSlot) : Bool := s.waiter ≠ .away && s'.waiter = .away

/-- A permit is stored in this step where there is one. -/
def merges (s : WakeSlot) (e : Event) (_ : WakeSlot) : Bool := e = .store && s.word = 1

/-- **What is stored in a step was taken, merged or is there.** -/
theorem Does.balance (hk : s.Kept) (hd : s.Does e s') :
    s.word.toNat + (e == .store).toNat =
      (returns s e s').toNat + (merges s e s').toNat + s'.word.toNat := by
  cases hd with
  | begins h | misses h | tires h | sleeps h | rouses h | stirs h | wakes _ h =>
    simp [returns, merges]
  | takes h hw => simp [returns, merges, h, hw]
  | stores => rcases hk.word_eq with hw | hw <;> simp [returns, merges, hw]
  | calls => simp [returns, merges]

theorem Kept.steps (hk : s.Kept) (h : s.steps es = some s') : s'.Kept := by
  induction es generalizing s with
  | nil =>
    cases h
    exact hk
  | cons e es ih =>
    obtain ⟨t, he, hes⟩ := of_steps_cons h
    exact ih (hk.does (does_of_step he)) hes

/-- **The permits of a run balance.** -/
theorem Kept.balance (hk : s.Kept) (h : s.steps es = some s') :
    s.word.toNat + es.count .store = s.tally returns es + s.tally merges es + s'.word.toNat := by
  induction es generalizing s with
  | nil =>
    cases h
    simp [tally]
  | cons e es ih =>
    obtain ⟨t, he, hes⟩ := of_steps_cons h
    have hd := does_of_step he
    have hstep := hd.balance hk
    have hrest := ih (hk.does hd) hes
    have hstores : (e :: es).count .store = es.count .store + (e == .store).toNat := by
      rw [List.count_cons]
      cases e == .store <;> rfl
    simp only [tally, he]
    omega

/-! ## Posts by name -/

/-- The single steps at a slot, each step of a post with the name of who posts. -/
inductive Deed (ι : Type) where
  | begin
  | attempt
  | doze
  | stir
  | store (i : ι)
  | call (i : ι)
deriving DecidableEq

/-- The step without a name. -/
def Deed.event {ι : Type} : Deed ι → Event
  | begin => .begin
  | attempt => .attempt
  | doze => .doze
  | stir => .stir
  | store _ => .store
  | call _ => .call

/-- **A slot and those who are in the middle of a post there**: they have stored their permit and not yet
made their wake-up call. -/
structure Scene (ι : Type) where
  slot : WakeSlot := {}
  posting : Finset ι := ∅

variable {ι : Type} [DecidableEq ι] {d : Deed ι} {ds : List (Deed ι)} {p q : Finset ι} {c c' : Scene ι}
  {i : ι}

/-- Who is in the middle of a post after a deed: a store comes before a call, and another store after it. -/
def Deed.posting (p : Finset ι) : Deed ι → Option (Finset ι)
  | .store i => if i ∈ p then none else some (insert i p)
  | .call i => if i ∈ p then some (p.erase i) else none
  | .begin | .attempt | .doze | .stir => some p

namespace Scene

/-- **One step by name**; nothing where it cannot happen. -/
def step (c : Scene ι) (d : Deed ι) : Option (Scene ι) :=
  d.posting c.posting >>= fun p => (c.slot.step d.event).map fun s => ⟨s, p⟩

/-- The steps of a list, one after another. -/
def run (c : Scene ι) : List (Deed ι) → Option (Scene ι)
  | [] => some c
  | d :: ds => c.step d >>= fun c' => c'.run ds

theorem of_step (h : c.step d = some c') :
    d.posting c.posting = some c'.posting ∧ c.slot.Does d.event c'.slot := by
  obtain ⟨p, hp, h⟩ := Option.bind_eq_some_iff.mp h
  obtain ⟨s, hs, rfl⟩ := Option.map_eq_some_iff.mp h
  exact ⟨hp, does_of_step hs⟩

theorem of_run_cons (h : c.run (d :: ds) = some c') :
    ∃ b, c.step d = some b ∧ b.run ds = some c' := Option.bind_eq_some_iff.mp h

/-- A run by name is a run of the slot. -/
theorem steps_of_run (h : c.run ds = some c') : c.slot.steps (ds.map Deed.event) = some c'.slot := by
  induction ds generalizing c with
  | nil =>
    cases h
    rfl
  | cons d ds ih =>
    obtain ⟨b, hd, hds⟩ := of_run_cons h
    obtain ⟨p, -, hd⟩ := Option.bind_eq_some_iff.mp hd
    obtain ⟨s, hs, rfl⟩ := Option.map_eq_some_iff.mp hd
    exact Option.bind_eq_some_iff.mpr ⟨s, hs, ih hds⟩

end Scene

/-- **The slot counts those who are in the middle of a post.** -/
theorem Does.callsDue_eq (hd : s.Does d.event s') (hp : d.posting p = some q)
    (h : s.callsDue = p.card) : s'.callsDue = q.card := by
  cases d with
  | store i =>
    obtain ⟨hi, hp⟩ := Option.ite_none_left_eq_some.mp hp
    cases hp
    cases hd
    rw [Finset.card_insert_of_notMem hi, h]
  | call i =>
    obtain ⟨hi, hp⟩ := Option.ite_none_right_eq_some.mp hp
    cases hp
    rw [Finset.card_erase_of_mem hi]
    cases hd <;> simp only <;> omega
  | begin | attempt | doze | stir =>
    cases hp
    cases hd <;> exact h

/-- A deed changes by one how often somebody has stored more than called. -/
theorem Deed.count_of_posting (hp : d.posting p = some q) (i : ι) :
    [d].count (.store i) + (if i ∈ p then 1 else 0) = [d].count (.call i) + (if i ∈ q then 1 else 0) := by
  cases d with
  | store j =>
    obtain ⟨hj, hp⟩ := Option.ite_none_left_eq_some.mp hp
    cases hp
    by_cases he : j = i
    · subst he
      simp [hj]
    · simp [he, Ne.symm he]
  | call j =>
    obtain ⟨hj, hp⟩ := Option.ite_none_right_eq_some.mp hp
    cases hp
    by_cases he : j = i
    · subst he
      simp [hj]
    · simp [he, Ne.symm he]
  | begin | attempt | doze | stir =>
    cases hp
    simp

namespace Scene

theorem callsDue_of_run (hc : c.slot.callsDue = c.posting.card) (h : c.run ds = some c') :
    c'.slot.callsDue = c'.posting.card := by
  induction ds generalizing c with
  | nil =>
    cases h
    exact hc
  | cons d ds ih =>
    obtain ⟨b, hd, hds⟩ := of_run_cons h
    obtain ⟨hp, hdoes⟩ := of_step hd
    exact ih (hdoes.callsDue_eq hp hc) hds

/-- Whoever is in the middle of a post has stored once more than called. -/
theorem count_of_run (h : c.run ds = some c') (i : ι) :
    ds.count (.store i) + (if i ∈ c.posting then 1 else 0) =
      ds.count (.call i) + (if i ∈ c'.posting then 1 else 0) := by
  induction ds generalizing c with
  | nil =>
    cases h
    rfl
  | cons d ds ih =>
    obtain ⟨b, hd, hds⟩ := of_run_cons h
    have hone := Deed.count_of_posting (of_step hd).1 i
    have hrest := ih hds
    rw [← List.singleton_append, List.count_append, List.count_append]
    omega

/-- **A wake slot loses no permit.**  Let any threads post at a slot, each as often as it likes, while its
owner waits as often as it likes after any number of polls, and let their steps fall in any order.  The
word is 0 or 1 throughout.  A wait returns only in a step that changes the word from 1 to 0.  Every permit
that was stored has been taken by a wait that returned, or was stored where one was already, or is still
there; so no more waits return than permits are stored.  And if the owner sleeps beside a permit, there is
somebody who has stored one and not yet called. -/
theorem no_permit_lost {spins : Nat} (h : ({ slot := { spins } } : Scene ι).run ds = some c) :
    let es := ds.map Deed.event
    let start : WakeSlot := { spins }
    (c.slot.word = 0 ∨ c.slot.word = 1) ∧
    (∀ d c', c.step d = some c' → c.slot.waiter ≠ .away → c'.slot.waiter = .away →
      d = .attempt ∧ c.slot.word = 1 ∧ c'.slot.word = 0) ∧
    es.count .store = start.tally returns es + start.tally merges es + c.slot.word.toNat ∧
    start.tally returns es ≤ es.count .store ∧
    (c.slot.waiter = .asleep → c.slot.word = 1 →
      ∃ i ∈ c.posting, ds.count (.store i) = ds.count (.call i) + 1) := by
  intro es start
  have hstart : start.Kept := ⟨.inl rfl, nofun⟩
  have hsteps : start.steps es = some c.slot := steps_of_run h
  have hkept := hstart.steps hsteps
  have hbalance := hstart.balance hsteps
  rw [show start.word.toNat = 0 from rfl] at hbalance
  refine ⟨hkept.word_eq, fun d c' hd hwaits haway => ?_, by omega, by omega, fun hasleep hone => ?_⟩
  · obtain ⟨he, htakes⟩ := (of_step hd).2.takes_of_return hwaits haway
    cases d with
    | attempt => exact ⟨rfl, htakes⟩
    | begin | doze | stir | store i | call i => cases he
  · have hdue : 0 < c.posting.card := callsDue_of_run rfl h ▸ hkept.due_pos hasleep hone
    obtain ⟨i, hi⟩ := Finset.card_pos.mp hdue
    have hcount := count_of_run h i
    rw [if_neg (Finset.notMem_empty i), if_pos hi] at hcount
    exact ⟨i, hi, hcount⟩

/-- Three threads post.  The first permit comes just before the owner would sleep and is taken, the second
one is merged into it; the third comes while the owner sleeps again, and its call is due. -/
theorem no_permit_lost_due :
    let ds : List (Deed Nat) := [.begin, .attempt, .store 0, .doze, .store 1, .attempt, .call 0, .begin,
      .attempt, .doze, .store 2]
    let es := ds.map Deed.event
    ∃ c, ({} : Scene Nat).run ds = some c ∧ c.slot.waiter = .asleep ∧ c.slot.word = 1 ∧
      es.count .store = 3 ∧ ({} : WakeSlot).tally returns es = 1 ∧ ({} : WakeSlot).tally merges es = 1 ∧
      ∃ i ∈ c.posting, ds.count (.store i) = ds.count (.call i) + 1 := by
  intro ds es
  obtain ⟨c, hrun, hasleep, hone⟩ : ∃ c, ({} : Scene Nat).run ds = some c ∧
      c.slot.waiter = .asleep ∧ c.slot.word = 1 := ⟨_, rfl, rfl, rfl⟩
  obtain ⟨-, -, -, -, hdue⟩ := no_permit_lost hrun
  exact ⟨c, hrun, hasleep, hone, rfl, rfl, rfl, hdue hasleep hone⟩

end Scene

/-! ## Whole calls, without interruption -/

theorem steps_append (s : WakeSlot) (es fs : List Event) :
    s.steps (es ++ fs) = s.steps es >>= fun t => t.steps fs := by
  induction es generalizing s with
  | nil => rfl
  | cons e es ih =>
    change (s.step e >>= fun t => t.steps (es ++ fs)) = (s.step e >>= fun t => t.steps es) >>= _
    simp only [ih, bind_assoc]

theorem exists_steps_poll (s : WakeSlot) (n : Nat) : ∃ es, s.steps es = some (s.poll n) := by
  induction n generalizing s with
  | zero => exact ⟨[], rfl⟩
  | succ n ih =>
    rw [poll]
    cases he : s.step .attempt with
    | none => exact ⟨[], rfl⟩
    | some t =>
      obtain ⟨es, hes⟩ := ih t
      exact ⟨.attempt :: es, Option.bind_eq_some_iff.mpr ⟨t, he, hes⟩⟩

theorem exists_steps_settle (s : WakeSlot) : ∃ es, s.steps es = some s.settle := by
  obtain ⟨es, hes⟩ := s.exists_steps_poll (s.spins + 1)
  rw [settle]
  cases hdoze : (s.poll (s.spins + 1)).step .doze with
  | none => exact ⟨es, hes⟩
  | some t =>
    refine ⟨es ++ [.doze], ?_⟩
    rw [steps_append, hes]
    exact Option.bind_eq_some_iff.mpr ⟨_, rfl, Option.bind_eq_some_iff.mpr ⟨t, hdoze, rfl⟩⟩

theorem exists_steps_of_settled (h : (s.steps es).map settle = some s') :
    ∃ fs, s.steps fs = some s' := by
  obtain ⟨t, hes, rfl⟩ := Option.map_eq_some_iff.mp h
  obtain ⟨fs, hfs⟩ := t.exists_steps_settle
  refine ⟨es ++ fs, ?_⟩
  rw [steps_append, hes]
  exact hfs

/-- **A whole wait is a run of steps**, and so keeps what every run keeps. -/
theorem exists_steps_of_wait (h : s.wait = some s') : ∃ es, s.steps es = some s' := by
  have hbegin : s.steps [.begin] = s.step .begin := bind_pure (s.step .begin)
  rw [wait, ← hbegin] at h
  exact exists_steps_of_settled h

/-- **A whole post is a run of steps.** -/
theorem exists_steps_of_post (h : s.post = some s') : ∃ es, s.steps es = some s' :=
  exists_steps_of_settled h

theorem poll_of_away (h : s.waiter = .away) (n : Nat) : s.poll n = s := by
  cases n with
  | zero => rfl
  | succ n => simp only [poll, step, h]

theorem poll_of_permit {left : Nat} (h : s.waiter = .polling left) (hw : s.word = 1) (n : Nat) :
    s.poll (n + 1) = { s with word := 0, waiter := .away } := by
  simp only [poll, step, h, hw, if_true]
  exact poll_of_away rfl n

/-- Without a permit the owner tries as often as it polls, and once more. -/
theorem poll_without_permit {left : Nat} (h : s.waiter = .polling left) (hw : s.word ≠ 1) :
    s.poll (left + 1) = { s with waiter := .drowsy } := by
  induction left generalizing s with
  | zero => simp only [poll, step, h, if_neg hw]
  | succ left ih =>
    rw [poll]
    simp only [step, h, if_neg hw]
    exact ih rfl hw

theorem settle_of_away (h : s.waiter = .away) : s.settle = s := by
  simp [settle, poll_of_away h, step, h]

theorem settle_of_permit {left : Nat} (h : s.waiter = .polling left) (hw : s.word = 1) :
    s.settle = { s with word := 0, waiter := .away } := by
  simp [settle, poll_of_permit h hw, step]

theorem settle_without_permit (h : s.waiter = .polling s.spins) (hw : s.word = 0) :
    s.settle = { s with waiter := .asleep } := by
  have hne : s.word ≠ 1 := by simp [hw]
  simp [settle, poll_without_permit h hne, step, hw]

theorem step_begin (h : s.waiter = .away) : s.step .begin = some { s with waiter := .polling s.spins } :=
  if_pos h

/-- **A wait takes the permit that is there.** -/
theorem wait_of_permit (h : s.waiter = .away) (hw : s.word = 1) :
    s.wait = some { s with word := 0, waiter := .away } := by
  rw [wait, step_begin h, Option.map_some]
  exact congrArg some (settle_of_permit rfl hw)

/-- **A wait without a permit ends asleep.** -/
theorem wait_without_permit (h : s.waiter = .away) (hw : s.word = 0) :
    s.wait = some { s with waiter := .asleep } := by
  rw [wait, step_begin h, Option.map_some]
  exact congrArg some (settle_without_permit rfl hw)

/-- **A post is kept while the owner is away**; where there is a permit it changes nothing. -/
theorem post_of_away (h : s.waiter = .away) : s.post = some { s with word := 1 } := by
  have hsteps : s.steps [.store, .call] = some { s with word := 1 } := by simp [steps, step, h]
  rw [post, hsteps, Option.map_some]
  exact congrArg some (settle_of_away h)

/-- **A post wakes a sleeping owner**, who takes the permit. -/
theorem post_of_asleep (h : s.waiter = .asleep) :
    s.post = some { s with word := 0, waiter := .away } := by
  have hsteps : s.steps [.store, .call] = some { s with word := 1, waiter := .polling s.spins } := by
    simp [steps, step, h]
  rw [post, hsteps, Option.map_some]
  exact congrArg some (settle_of_permit rfl rfl)

end WakeSlot

end SoleRunner
