/-!
# WakeSlot — one thread's wake-up call, as a word to sleep on

A wake slot holds at most one permit.  Its owner waits for the permit and consumes it; others post it.
The slot is one word, 1 while a permit is there: the owner polls it a few times, then sleeps on it until
somebody who posted wakes it.  Each access to the word, each sleep and each wake-up is one step here
(`WakeSlot.step`), so that posts and the owner's steps can interleave in any order; `wait` and `post` run
such steps without interruption.
-/

namespace SoleRunner

/-- Where the owner of a slot is. -/
inductive Waiter where
  /-- Not waiting. -/
  | away
  /-- About to try the word, and then `left` more times before sleeping. -/
  | polling (left : Nat)
  /-- About to sleep, unless the word has changed. -/
  | drowsy
  | asleep
deriving DecidableEq

/-- A wake slot and everyone at it. -/
structure WakeSlot where
  /-- 1 while a permit is there, and 0 otherwise. -/
  word : UInt32 := 0
  /-- How often the owner polls before its last try. -/
  spins : Nat := 0
  waiter : Waiter := .away
  /-- Posts that have stored their permit and not yet made their wake-up call. -/
  callsDue : Nat := 0
deriving DecidableEq

namespace WakeSlot

/-- The single steps at a slot. -/
inductive Event where
  /-- The owner starts to wait. -/
  | begin
  /-- The owner tries to take the permit: it changes the word from 1 to 0. -/
  | attempt
  /-- The owner goes to sleep, unless the word is no longer 0. -/
  | doze
  /-- The owner's sleep ends, for no reason. -/
  | stir
  /-- A post stores its permit. -/
  | store
  /-- A post makes its wake-up call. -/
  | call
deriving DecidableEq

/-- **One step**; nothing where the event cannot happen. -/
def step (s : WakeSlot) : Event → Option WakeSlot
  | .begin => if s.waiter = .away then some { s with waiter := .polling s.spins } else none
  | .attempt =>
    match s.waiter with
    | .polling left =>
      if s.word = 1 then some { s with word := 0, waiter := .away }
      else match left with
        | 0 => some { s with waiter := .drowsy }
        | left + 1 => some { s with waiter := .polling left }
    | _ => none
  | .doze =>
    if s.waiter = .drowsy then
      if s.word = 0 then some { s with waiter := .asleep }
      else some { s with waiter := .polling s.spins }
    else none
  | .stir => if s.waiter = .asleep then some { s with waiter := .polling s.spins } else none
  | .store => some { s with word := 1, callsDue := s.callsDue + 1 }
  | .call =>
    match s.callsDue with
    | 0 => none
    | due + 1 =>
      if s.waiter = .asleep then some { s with waiter := .polling s.spins, callsDue := due }
      else some { s with callsDue := due }

/-- The steps of a list, one after another. -/
def steps (s : WakeSlot) : List Event → Option WakeSlot
  | [] => some s
  | e :: es => s.step e >>= fun s' => s'.steps es

/-! ## Whole calls, without interruption -/

/-- The owner tries until the permit is its own, at most `n` times. -/
def poll (s : WakeSlot) : Nat → WakeSlot
  | 0 => s
  | n + 1 =>
    match s.step .attempt with
    | some s' => s'.poll n
    | none => s

/-- The owner goes on by itself until it has the permit or sleeps. -/
def settle (s : WakeSlot) : WakeSlot :=
  let polled := s.poll (s.spins + 1)
  (polled.step .doze).getD polled

/-- The owner waits, until it has the permit or sleeps; nothing where it waits already. -/
def wait (s : WakeSlot) : Option WakeSlot := (s.step .begin).map settle

/-- Somebody posts a permit, and the owner goes on if that wakes it. -/
def post (s : WakeSlot) : Option WakeSlot := (s.steps [.store, .call]).map settle

end WakeSlot

end SoleRunner
