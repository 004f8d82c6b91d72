import SoleRunner.Text.Blank

/-!
# Log/Level — how much is logged

The levels from `off` to `trace`, ordered by their number: a level lets through every message whose own
number is at most its own.
-/

namespace SoleRunner.Log

/-- A log level. -/
inductive Level where
  | off
  | error
  | warn
  | info
  | debug
  | trace
deriving DecidableEq, Inhabited

namespace Level

/-- The place of the level in the order. -/
def number : Level → Nat
  | off => 0
  | error => 1
  | warn => 2
  | info => 3
  | debug => 4
  | trace => 5

/-- The level with number `n`; every number past the last stands for the last. -/
def ofNumber : Nat → Level
  | 0 => off
  | 1 => error
  | 2 => warn
  | 3 => info
  | 4 => debug
  | _ => trace

theorem ofNumber_number (l : Level) : ofNumber l.number = l := by cases l <;> rfl

/-- The name of the level, as settings give it. -/
def name : Level → String
  | off => "off"
  | error => "error"
  | warn => "warn"
  | info => "info"
  | debug => "debug"
  | trace => "trace"

/-- All levels, in order. -/
def all : List Level := [off, error, warn, info, debug, trace]

/-- The level that a setting names or numbers, in any case and with blanks around it. -/
def parse? (setting : String) : Option Level :=
  let w := Text.word setting
  all.find? fun l => w == l.name || w == toString l.number

/-- The tag of a line at this level, padded to one width. -/
def tag : Level → String
  | off => ""
  | error => "[ERROR]"
  | warn => "[WARN] "
  | info => "[INFO] "
  | debug => "[DEBUG]"
  | trace => "[TRACE]"

/-- The level as it stands inside an inspected value. -/
def inspect : Level → String
  | off => "Off"
  | error => "Error"
  | warn => "Warn"
  | info => "Info"
  | debug => "Debug"
  | trace => "Trace"

end Level

end SoleRunner.Log
