import SoleRunner.Text.Blank
import SoleRunner.Text.Integer

/-!
# Environment — settings read from environment variables

A bad value never stops a run: a variable that is unset, is not text or does not parse yields the
default.
-/

namespace SoleRunner

/-- The environment: the value of each variable that is set, as bytes. -/
structure Environment where
  entries : List (String × ByteArray) := []

namespace Environment

/-- The environment whose variables hold these texts. -/
def ofTexts (texts : List (String × String)) : Environment :=
  ⟨texts.map fun (key, value) => (key, value.toUTF8)⟩

/-- The value of `key`, if it is set and is text. -/
def text? (env : Environment) (key : String) : Option String :=
  env.entries.lookup key >>= String.fromUTF8?

/-- The value of `key` as text. -/
def text (env : Environment) (key default : String) : String := (env.text? key).getD default

/-- What `parse` makes of the value of `key` without the blanks around it. -/
def parsed? {α : Type} (env : Environment) (parse : String → Option α) (key : String) : Option α :=
  env.text? key >>= fun value => parse (Text.trim value)

/-- The value of `key` as a natural number below `2 ^ bits`. -/
def unsigned (env : Environment) (bits : Nat) (key : String) (default : Nat) : Nat :=
  (env.parsed? (Text.readUnsigned bits) key).getD default

/-- The words that switch a setting on. -/
def affirmatives : List String := ["1", "true", "yes", "on"]

/-- The value of `key` as a switch: on for one of the `affirmatives`, in any case, and off for every
other text. -/
def switch (env : Environment) (key : String) (default : Bool) : Bool :=
  match env.text? key with
  | some value => affirmatives.contains (Text.word value)
  | none => default

end Environment

end SoleRunner
