import SoleRunner.Arbiter.Setup
import SoleRunner.Simulation.Policies
import SoleRunner.Text.Duration

/-!
# Interleaver — a demonstration run, from its settings to what it prints

The interleaver runs simulated threads that take turns, and prints the order in which their operations
were computed.  `run` is the whole demonstration except for the clock: the caller says how long it took.
-/

namespace SoleRunner.Interleaver

open Simulation

/-- The settings of a demonstration. -/
structure Settings where
  threads : Nat := 4
  /-- Computed operations per thread. -/
  ops : Nat := 6
deriving DecidableEq, Inhabited

/-- The settings that the environment gives. -/
def Settings.ofEnvironment (env : Environment) : Settings where
  threads := env.unsigned 64 "INTERLEAVER_THREADS" 4
  ops := env.unsigned 64 "INTERLEAVER_OPS" 6

/-- The program of thread `i`: after every `i + 2` computed operations comes a system call. -/
def program (i ops : Nat) : Program :=
  (List.range ops).flatMap fun n =>
    if (n + 1) % (i + 2) = 0 then [.compute, .syscall] else [.compute]

/-- What a demonstration leaves behind. -/
inductive Ending where
  /-- It could not be set up, or its threads could not all be joined. -/
  | failed (f : Fault)
  /-- A handler ended the process. -/
  | aborted (f : Fault)
  /-- It ran, and left the arbiter like this. -/
  | ran (r : Report) (stats : Stats) (quiescent : Except Fault Unit)

/-- A demonstration that is over: its settings, how it ended, and what it logged. -/
structure Outcome where
  settings : Settings
  ending : Ending
  log : Array Log.Entry

/-- The first turns go round the ready threads, one turn for each computed operation; the turns after
them go to the lowest ready thread. -/
def picks (settings : Settings) : List Nat := List.range (settings.threads * settings.ops)

/-- The run of programs on a substrate that is set up, and its log. -/
def execute (substrate : Substrate (Arbiter Cursor Rotation)) (m : Ledger Cursor Rotation)
    (programs : List Program) (picks : List Nat) : Ending × Array Log.Entry :=
  match wiring substrate with
  | .error f => (.failed f, m.log)
  | .ok wired =>
    match load wired Policy.rotate programs m with
    | .error f m => (.aborted f, m.log)
    | .ok machine m =>
      let trail := machine.run (turnBound programs) picks (.initial m () programs.length)
      let m := trail.world.ledger
      match trail.fault, trail.world.outcome with
      | some f, _ => (.aborted f, m.log)
      | none, .error f => (.failed f, m.log)
      | none, .ok report => (.ran report m.stats m.auditAtRest, m.log)

/-- **The demonstration.** -/
def run (env : Environment) : Outcome :=
  let settings := Settings.ofEnvironment env
  let threads := settings.threads
  let ops := settings.ops
  let config := { Config.ofEnvironment env with capacity := max threads 1 }
  match Arbiter.launch Rotation.scheduler {} config { substrate := .simulated } with
  | .error f s => ⟨settings, .failed f, s.log⟩
  | .ok (_, m) s =>
    let programs := (List.range threads).map fun i => program i ops
    let (ending, log) := execute s.substrate m programs (picks settings)
    let announced := .message .info s!"running {threads} threads, {ops} compute ops each"
    ⟨settings, ending, s.log.push announced ++ log⟩

/-! ## What is printed -/

/-- A list in pieces of eight. -/
def eights {α : Type} : List α → List (List α)
  | a :: b :: c :: d :: e :: f :: g :: h :: rest => [a, b, c, d, e, f, g, h] :: eights rest
  | [] => []
  | short => [short]

/-- A computed operation, in the order of execution. -/
def stepText (s : Step) : String :=
  let (owner, pc, os) := (s.owner, s.pc, s.osThread)
  s!"{owner}:{pc}@{os}"

/-- The line about thread `i`. -/
def threadLine (r : Report) (i : Nat) : String :=
  let tid := ThreadId.ofIndex i
  let computed := (r.computedBy tid).length
  let foreign := r.computedElsewhere tid
  s!"  thread {tid}: {computed} compute ops, {foreign} run on another OS thread"

/-- The lines about a run that took `nanos` nanoseconds. -/
def runLines (settings : Settings) (r : Report) (stats : Stats) (nanos : Nat) : List String :=
  ["Execution order (owner:pc @ os thread):"] ++
    (eights (r.steps.map stepText)).map (fun piece => "  " ++ String.intercalate "  " piece) ++
    [""] ++ (List.range settings.threads).map (threadLine r) ++
    ["", "Peak concurrent runners: " ++ toString r.peak, "Arbiter stats:", stats.text,
      "", "Elapsed: " ++ Text.duration nanos]

namespace Outcome

/-- The lines printed on standard output. -/
def printed (o : Outcome) (nanos : Nat) : List String :=
  ["=== vspin Interleaver ===", ""] ++
    match o.ending with
    | .failed _ | .aborted _ => []
    | .ran r stats quiescent =>
      runLines o.settings r stats nanos ++
        match quiescent with
        | .ok () => ["", "=== Interleaver Complete ==="]
        | .error _ => []

/-- The line that says why the demonstration failed, if it did. -/
def failure? (o : Outcome) : Option String :=
  let failed (f : Fault) : String := "interleaver failed: " ++ f.message
  match o.ending with
  | .failed f => some (failed f)
  | .aborted f => some f.finalLine
  | .ran _ _ (.error f) => some (failed f)
  | .ran _ _ (.ok ()) => none

/-- The text printed on standard error. -/
def complaints (o : Outcome) (env : Environment) : String :=
  (Log.Settings.ofEnvironment env).renderAll
    (o.log.toList ++ (o.failure?.map Log.Entry.line).toList)

/-- The exit code. -/
def exitCode (o : Outcome) : UInt32 := if o.failure?.isSome then 1 else 0

end Outcome

end SoleRunner.Interleaver
