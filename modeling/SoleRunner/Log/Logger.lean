import SoleRunner.Environment
import SoleRunner.Log.Level

/-!
# Log/Logger — a logger that reads its settings on first use

A logger keeps each setting in a cell, which at first holds the default.  Whoever reads a cell takes the
settings from the environment before, unless that has been done (`Logger.init`), and so does whoever sets
one: a setting made by a call is not overridden by the environment later.  `Logger.respond` is one call,
with what it returns and writes and what it leaves in the cells.
-/

namespace SoleRunner.Log

/-- What is written on the error stream: a line of its own, or a message at a level. -/
inductive Entry where
  | line (text : String)
  | message (level : Level) (text : String)
deriving DecidableEq

/-- What a logger goes by. -/
structure Settings where
  level : Level := .warn
  /-- Flush after every write. -/
  flush : Bool := false
  /-- Start each message with the time since the first call. -/
  stamped : Bool := false
deriving DecidableEq, Inhabited

/-- The line of a message, without its stamp. -/
def messageLine (level : Level) (text : String) : String :=
  "[vspin] " ++ level.tag ++ " " ++ text ++ "\n"

namespace Settings

/-- The settings that the environment gives. -/
def ofEnvironment (env : Environment) : Settings where
  level := (Level.parse? (env.text "VSPIN_LOG_LEVEL" "warn")).getD .warn
  flush := env.switch "VSPIN_FLUSH_EPRINT" false
  stamped := env.switch "VSPIN_LOG_TIME" false

/-- Messages at `level` are written; there are no messages at `off`. -/
def lets (s : Settings) (level : Level) : Bool :=
  level != .off && level.number ≤ s.level.number

/-- The stamp of a message written `elapsed` microseconds after the settings were first needed. -/
def stamp (s : Settings) (elapsed : Nat) : String :=
  if s.stamped then
    let digits := toString elapsed
    String.ofList (List.replicate (10 - digits.length) ' ') ++ digits ++ "us "
  else ""

/-- The text that `entry` writes. -/
def render (s : Settings) (elapsed : Nat) : Entry → String
  | .line text => text ++ "\n"
  | .message level text => if s.lets level then s.stamp elapsed ++ messageLine level text else ""

/-- The text that all `entries` write. -/
def renderAll (s : Settings) (entries : List Entry) : String :=
  String.join (entries.map (s.render 0))

end Settings

/-- A logger: its cells. -/
structure Logger where
  /-- The settings have been taken from the environment. -/
  initialized : Bool := false
  /-- The level, by its number. -/
  level : Nat := Level.warn.number
  flush : Bool := false
  stamped : Bool := false
  /-- The time from which stamps count. -/
  epoch? : Option Nat := none
deriving DecidableEq, Inhabited

/-- The calls one can make on a logger. -/
inductive Call where
  | init
  | level
  | flush
  | enabled (level : Level)
  | setLevel (level : Level)
  | setFlush (on : Bool)
  | setStamped (on : Bool)
  /-- Writes the text as it is. -/
  | print (text : String)
  /-- Writes the text as a line. -/
  | printLine (text : String)
  /-- Writes a message, if its level is let through. -/
  | message (level : Level) (text : String)
deriving DecidableEq

/-- What a call returns. -/
inductive Answer where
  | nothing
  | level (level : Level)
  | flag (on : Bool)
deriving DecidableEq

/-- What comes of a call. -/
structure Response where
  answer : Answer := .nothing
  /-- What the call writes. -/
  text : String := ""
  /-- The stream is flushed after that. -/
  flushed : Bool := false
  logger : Logger

namespace Logger

/-- The settings that the cells hold. -/
def settings (l : Logger) : Settings where
  level := .ofNumber l.level
  flush := l.flush
  stamped := l.stamped

/-- **Takes the settings from the environment**, unless that has been done; a level that does not parse is
passed over. -/
def init (env : Environment) (now : Nat) (l : Logger) : Logger :=
  if l.initialized then l
  else
    { initialized := true
      level :=
        match Level.parse? (env.text "VSPIN_LOG_LEVEL" "warn") with
        | some level => level.number
        | none => l.level
      flush := env.switch "VSPIN_FLUSH_EPRINT" false
      stamped := env.switch "VSPIN_LOG_TIME" false
      epoch? := some (l.epoch?.getD now) }

/-- Whether messages at `level` are written; for `off` no cell is read. -/
def enabled (env : Environment) (now : Nat) (level : Level) (l : Logger) : Bool × Logger :=
  if level = .off then (false, l)
  else
    let l := l.init env now
    (level.number ≤ l.settings.level.number, l)

/-- The stamp of a message.  The cell is read as it is. -/
def stamp (now : Nat) (l : Logger) : String × Logger :=
  if l.stamped then
    let epoch := l.epoch?.getD now
    (l.settings.stamp (now - epoch), { l with epoch? := some epoch })
  else ("", l)

/-- Writes `text`, and then looks whether to flush. -/
def write (env : Environment) (now : Nat) (text : String) (l : Logger) : Response :=
  let l := l.init env now
  { text, flushed := l.flush, logger := l }

/-- **One call**, made at the time `now`. -/
def respond (env : Environment) (now : Nat) (l : Logger) : Call → Response
  | .init => { logger := l.init env now }
  | .level =>
    let l := l.init env now
    { answer := .level l.settings.level, logger := l }
  | .flush =>
    let l := l.init env now
    { answer := .flag l.flush, logger := l }
  | .enabled level =>
    let (on, l) := l.enabled env now level
    { answer := .flag on, logger := l }
  | .setLevel level => { logger := { l.init env now with level := level.number } }
  | .setFlush on => { logger := { l.init env now with flush := on } }
  | .setStamped on => { logger := { l.init env now with stamped := on } }
  | .print text => l.write env now text
  | .printLine text => l.write env now (text ++ "\n")
  | .message level text =>
    let (on, l) := l.enabled env now level
    if on then
      let (stamp, l) := l.stamp now
      l.write env now (stamp ++ messageLine level text)
    else { logger := l }

/-- What a caller gets to see of a call: its answer, the text it writes, and the logger afterwards. -/
def call (env : Environment) (now : Nat) (l : Logger) (c : Call) : Answer × String × Logger :=
  let r := l.respond env now c
  (r.answer, r.text, r.logger)

end Logger

end SoleRunner.Log
