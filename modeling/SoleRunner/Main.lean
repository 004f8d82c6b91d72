import SoleRunner.Interleaver

/-!
# Main — the interleaver as a program

Reads the settings from the environment, runs the demonstration and prints what it leaves behind.
-/

open SoleRunner

/-- The variables that the demonstration looks at. -/
def consulted : List String :=
  ["INTERLEAVER_THREADS", "INTERLEAVER_OPS", "VSPIN_MAX_THREADS", "VSPIN_LOCK_SPINS",
    "VSPIN_WAKE_SPINS", "VSPIN_DEBUG", "VSPIN_LOG_LEVEL", "VSPIN_FLUSH_EPRINT", "VSPIN_LOG_TIME"]

/-- The consulted variables that are set. -/
def readEnvironment : IO Environment := do
  let found ← consulted.filterMapM fun key => do
    return (← IO.getEnv key).map fun value => (key, value)
  return .ofTexts found

def main : IO UInt32 := do
  let env ← readEnvironment
  let began ← IO.monoNanosNow
  let outcome ← IO.lazyPure fun _ => Interleaver.run env
  let ended ← IO.monoNanosNow
  (← IO.getStderr).putStr (outcome.complaints env)
  for line in outcome.printed (ended - began) do
    IO.println line
  return outcome.exitCode
