import SoleRunner.Arbiter.Ledger

/-!
# Arbiter/Critical — what the arbiter does while it holds its lock

A critical section is a `Critical` action: it reads and changes the ledger and may fail, and what it
changed before failing stays changed.  This module holds the steps that critical sections are made of;
`setRunner` and `setArmed` write a field and publish it.  Each step has an equation for what it does to a
ledger.
-/

namespace SoleRunner

/-- **A critical section**: it fails with a fault, or answers, and in both cases leaves a ledger. -/
abbrev Critical (C σ : Type) := EStateM Fault (Ledger C σ)

namespace Critical

variable {C σ α : Type}

/-! ## Expectations and log -/

/-- Fails with `check` unless `p` holds. -/
def expect (p : Prop) [Decidable p] (check : Check) : Critical C σ Unit :=
  if p then pure () else throw (.broken check)

/-- Logs a message. -/
def note (level : Log.Level) (text : String) : Critical C σ Unit :=
  modify fun m => { m with log := m.log.push (.message level text) }

/-- Counts an event. -/
def tally (f : Stats → Stats) : Critical C σ Unit :=
  modify fun m => { m with stats := f m.stats }

/-! ## The table -/

/-- The state of `tid`. -/
def stateOf (tid : ThreadId) : Critical C σ ThreadState := do
  ofExcept ((← get).table.state tid)

/-- The saved context of `tid`. -/
def contextOf (tid : ThreadId) : Critical C σ C := do
  ofExcept ((← get).table.context tid)

/-- Replaces the table by what `f` makes of it. -/
def updateTable (f : Table C → Except Fault (Table C)) : Critical C σ Unit := do
  let table ← ofExcept (f (← get).table)
  modify fun m => { m with table }

def setState (tid : ThreadId) (s : ThreadState) : Critical C σ Unit :=
  updateTable fun t => t.setState tid s

def moveState (tid : ThreadId) (old new : ThreadState) : Critical C σ Unit :=
  updateTable fun t => t.move tid old new

def storeContext (tid : ThreadId) (c : C) : Critical C σ Unit :=
  updateTable fun t => t.store tid c

def modifyContext (tid : ThreadId) (f : C → C) : Critical C σ Unit :=
  updateTable fun t => t.modifyContext tid f

/-! ## Single fields -/

def setExecutor (tid : ThreadId) : Critical C σ Unit :=
  modify fun m => { m with executor := tid }

/-- Sets the runner and publishes it. -/
def setRunner (tid : ThreadId) : Critical C σ Unit :=
  modify fun m => { m with runner := tid, runnerHint := tid }

def setCaptured (n : Nat) : Critical C σ Unit :=
  modify fun m => { m with captured := n }

def setOwed (b : Bool) : Critical C σ Unit :=
  modify fun m => { m with owesUncapture := b }

/-- Arms or clears the block at the next switch, and publishes that. -/
def setArmed (b : Bool) : Critical C σ Unit :=
  modify fun m => { m with armed := b, armedHint := b }

/-- Tells the scheduler something that it does not answer. -/
def tell (f : σ → σ) : Critical C σ Unit :=
  modify fun m => { m with schedulerState := f m.schedulerState }

/-- Puts a permit into the wake slot of `tid`. -/
def post (tid : ThreadId) : Critical C σ Unit :=
  modify fun m => { m with permits := m.permits.setIfInBounds tid.index true }

/-- Takes the permit out of the wake slot of `tid`, and says whether there was one. -/
def takePermit (tid : ThreadId) : Critical C σ Bool :=
  modifyGet fun m =>
    (m.hasPermit tid, { m with permits := m.permits.setIfInBounds tid.index false })

/-! ## What the steps do to a ledger -/

variable {β : Type}

@[simp] theorem pure_apply (a : α) (m : Ledger C σ) : (pure a : Critical C σ α) m = .ok a m := rfl

@[simp] theorem bind_apply (x : Critical C σ α) (f : α → Critical C σ β) (m : Ledger C σ) :
    (x >>= f) m = match x m with
      | .ok a m' => f a m'
      | .error e m' => .error e m' := by
  simp only [bind, EStateM.bind]
  cases x m <;> rfl

@[simp] theorem map_apply (f : α → β) (x : Critical C σ α) (m : Ledger C σ) :
    (f <$> x) m = match x m with
      | .ok a m' => .ok (f a) m'
      | .error e m' => .error e m' := by
  simp only [Functor.map, EStateM.map]
  cases x m <;> rfl

@[simp] theorem get_apply (m : Ledger C σ) : (get : Critical C σ (Ledger C σ)) m = .ok m m := rfl

@[simp] theorem throw_apply (e : Fault) (m : Ledger C σ) :
    (throw e : Critical C σ α) m = .error e m := rfl

@[simp] theorem ofExcept_ok (a : α) :
    (ofExcept (.ok a : Except Fault α) : Critical C σ α) = pure a := rfl

@[simp] theorem ofExcept_error (e : Fault) :
    (ofExcept (.error e : Except Fault α) : Critical C σ α) = throw e := rfl

theorem ofExcept_apply (x : Except Fault α) (m : Ledger C σ) :
    (ofExcept x : Critical C σ α) m = match x with
      | .ok a => .ok a m
      | .error e => .error e m := by
  cases x <;> rfl

theorem if_apply (p : Prop) [Decidable p] (x y : Critical C σ α) (m : Ledger C σ) :
    (if p then x else y) m = if p then x m else y m := by
  split <;> rfl

theorem expect_apply (p : Prop) [Decidable p] (check : Check) (m : Ledger C σ) :
    expect p check m = if p then .ok () m else .error (.broken check) m := by
  unfold expect
  split <;> rfl

@[simp] theorem note_apply (level : Log.Level) (text : String) (m : Ledger C σ) :
    note level text m = .ok () { m with log := m.log.push (.message level text) } := rfl

@[simp] theorem tally_apply (f : Stats → Stats) (m : Ledger C σ) :
    tally f m = .ok () { m with stats := f m.stats } := rfl

theorem stateOf_apply (tid : ThreadId) (m : Ledger C σ) :
    stateOf tid m = match m.table.state tid with
      | .ok s => .ok s m
      | .error e => .error e m := by
  simp only [stateOf, bind_apply, get_apply, ofExcept_apply]
  cases m.table.state tid <;> rfl

theorem contextOf_apply (tid : ThreadId) (m : Ledger C σ) :
    contextOf tid m = match m.table.context tid with
      | .ok c => .ok c m
      | .error e => .error e m := by
  simp only [contextOf, bind_apply, get_apply, ofExcept_apply]

theorem updateTable_apply (f : Table C → Except Fault (Table C)) (m : Ledger C σ) :
    updateTable f m = match f m.table with
      | .ok table => .ok () { m with table }
      | .error e => .error e m := by
  simp only [updateTable, bind_apply, get_apply, ofExcept_apply]
  cases f m.table <;> rfl

@[simp] theorem setExecutor_apply (tid : ThreadId) (m : Ledger C σ) :
    setExecutor tid m = .ok () { m with executor := tid } := rfl

@[simp] theorem setRunner_apply (tid : ThreadId) (m : Ledger C σ) :
    setRunner tid m = .ok () { m with runner := tid, runnerHint := tid } := rfl

@[simp] theorem setCaptured_apply (n : Nat) (m : Ledger C σ) :
    setCaptured n m = .ok () { m with captured := n } := rfl

@[simp] theorem setOwed_apply (b : Bool) (m : Ledger C σ) :
    setOwed b m = .ok () { m with owesUncapture := b } := rfl

@[simp] theorem setArmed_apply (b : Bool) (m : Ledger C σ) :
    setArmed b m = .ok () { m with armed := b, armedHint := b } := rfl

@[simp] theorem tell_apply (f : σ → σ) (m : Ledger C σ) :
    tell f m = .ok () { m with schedulerState := f m.schedulerState } := rfl

@[simp] theorem post_apply (tid : ThreadId) (m : Ledger C σ) :
    post tid m = .ok () { m with permits := m.permits.setIfInBounds tid.index true } := rfl

@[simp] theorem takePermit_apply (tid : ThreadId) (m : Ledger C σ) :
    takePermit tid m =
      .ok (m.hasPermit tid) { m with permits := m.permits.setIfInBounds tid.index false } := rfl

end Critical

end SoleRunner
