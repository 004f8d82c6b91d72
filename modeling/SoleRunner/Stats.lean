/-!
# Stats — counts of what the arbiter did

One counter per kind of event.  Nothing in the protocol reads them.
-/

namespace SoleRunner

/-- The counters of an arbiter; each one wraps at `2 ^ 64`. -/
structure Stats where
  starts : UInt64 := 0
  ends : UInt64 := 0
  captures : UInt64 := 0
  uncaptures : UInt64 := 0
  switches : UInt64 := 0
  shipped : UInt64 := 0
  delayed : UInt64 := 0
  spurious : UInt64 := 0
  blocks : UInt64 := 0
  unblocks : UInt64 := 0
  units : UInt64 := 0
deriving DecidableEq, Inhabited

/-- The counters in words, one line per topic. -/
def Stats.text (s : Stats) : String :=
  String.intercalate "\n"
    [ s!" threads: {s.starts} starts, {s.ends} ends",
      s!" units instrumented: {s.units}",
      s!" captures: {s.captures}, uncaptures: {s.uncaptures}",
      s!" switches: {s.switches}",
      s!" syscalls: {s.shipped} shipped, {s.delayed} delayed uncaptures",
      s!" blocks: {s.blocks}, unblocks: {s.unblocks}",
      s!" spurious wakeups: {s.spurious}" ]

end SoleRunner
