/-!
# Text/Duration — a span of time in the largest unit it fills

A span is written in seconds, milliseconds, microseconds or nanoseconds, whichever is the largest unit
of which it holds at least one, with as many decimals as it needs.
-/

namespace SoleRunner.Text

/-- `part` out of `unit` (a power of ten) as decimals with their point; nothing for zero. -/
def decimals (unit part : Nat) : String :=
  let digits := (toString (unit + part)).toList.drop 1
  match (digits.reverse.dropWhile (· = '0')).reverse with
  | [] => ""
  | kept => "." ++ String.ofList kept

/-- A span of `nanos` nanoseconds. -/
def duration (nanos : Nat) : String :=
  let inUnit (unit : Nat) (name : String) : String :=
    toString (nanos / unit) ++ decimals unit (nanos % unit) ++ name
  if 1000000000 ≤ nanos then inUnit 1000000000 "s"
  else if 1000000 ≤ nanos then inUnit 1000000 "ms"
  else if 1000 ≤ nanos then inUnit 1000 "µs"
  else inUnit 1 "ns"

end SoleRunner.Text
