import SoleRunner.Environment

/-!
# Config — the arbiter's settings

Settings come from the defaults, then the environment, then whoever builds the arbiter.  Only the
capacity can be wrong: it must be positive and at most `capacityLimit`.
-/

namespace SoleRunner

/-- The settings of an arbiter. -/
structure Config where
  /-- The capacity of the thread table. -/
  capacity : Nat := 2048
  /-- Rounds spent spinning on the arbitration lock before yielding. -/
  lockSpins : Nat := 1000
  /-- Polls of a wake slot before sleeping. -/
  wakeSpins : Nat := 64
  /-- Log every hand-off. -/
  logHandOffs : Bool := false
deriving DecidableEq, Inhabited

namespace Config

/-- The greatest capacity. -/
def capacityLimit : Nat := 65536

/-- The defaults, with what the environment says instead. -/
def ofEnvironment (env : Environment) : Config :=
  let base : Config := {}
  { capacity := env.unsigned 64 "VSPIN_MAX_THREADS" base.capacity
    lockSpins := env.unsigned 32 "VSPIN_LOCK_SPINS" base.lockSpins
    wakeSpins := env.unsigned 32 "VSPIN_WAKE_SPINS" base.wakeSpins
    logHandOffs := env.switch "VSPIN_DEBUG" base.logHandOffs }

/-- What can be wrong with a configuration. -/
inductive Problem where
  | zeroCapacity
  | capacityTooLarge
  /-- A problem that some other part of the program reports in its own words. -/
  | other (text : String)
deriving DecidableEq

/-- The problem in words. -/
def Problem.text : Problem → String
  | zeroCapacity => "max_threads must be > 0"
  | capacityTooLarge => "max_threads must be <= 65536"
  | other text => text

/-- The report of a problem that stands alone. -/
def Problem.message (p : Problem) : String := "Invalid config: " ++ p.text

/-- **The problem of a configuration**, unless its capacity is positive and within the limit. -/
def problem? (c : Config) : Option Problem :=
  if c.capacity = 0 then some .zeroCapacity
  else if capacityLimit < c.capacity then some .capacityTooLarge
  else none

theorem problem?_eq_none_iff (c : Config) :
    c.problem? = none ↔ 0 < c.capacity ∧ c.capacity ≤ capacityLimit := by
  unfold problem?
  split
  · simp_all
  · split
    · simp_all
    · simp only [true_iff]
      omega

/-- The configuration as printed, one line per setting. -/
def lines (c : Config) : List String :=
  [ "vspin Configuration:",
    "  max_threads:    " ++ toString c.capacity,
    "  lock_spins:     " ++ toString c.lockSpins,
    "  wake_spins:     " ++ toString c.wakeSpins,
    "  debug_logging:  " ++ toString c.logHandOffs ]

end Config

end SoleRunner
