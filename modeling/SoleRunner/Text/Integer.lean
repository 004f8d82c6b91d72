/-!
# Text/Integer — reading a decimal integer of a given width

A number is one or more decimal digits, with a `+` before them if one likes, or a `-` where the type
has a sign.  Nothing else may stand in the text, and the value must fit the type.
-/

namespace SoleRunner.Text

/-- An integer type: its width, and whether it has a sign. -/
structure IntegerKind where
  signed : Bool
  bits : Nat
deriving DecidableEq

namespace IntegerKind

/-- The least value. -/
def least (k : IntegerKind) : Int := if k.signed then -Nat.pow 2 (k.bits - 1) else 0

/-- The greatest value. -/
def greatest (k : IntegerKind) : Int :=
  if k.signed then Nat.pow 2 (k.bits - 1) - 1 else Nat.pow 2 k.bits - 1

/-- `v`, if it fits. -/
def fit? (k : IntegerKind) (v : Int) : Option Int :=
  if k.least ≤ v ∧ v ≤ k.greatest then some v else none

end IntegerKind

/-- The value of a row of decimal digits, read on from `acc`. -/
def readDigits (acc : Nat) : List Char → Option Nat
  | [] => some acc
  | c :: cs => if c.isDigit then readDigits (10 * acc + (c.toNat - '0'.toNat)) cs else none

/-- The value of at least one decimal digit. -/
def readNatural : List Char → Option Nat
  | [] => none
  | cs => readDigits 0 cs

/-- The integer of kind `k` that the characters stand for. -/
def readInteger (k : IntegerKind) : List Char → Option Int
  | '+' :: cs => readNatural cs >>= fun n => k.fit? n
  | '-' :: cs => if k.signed then readNatural cs >>= fun n => k.fit? (-n) else none
  | cs => readNatural cs >>= fun n => k.fit? n

/-- The natural number below `2 ^ bits` that `s` stands for. -/
def readUnsigned (bits : Nat) (s : String) : Option Nat :=
  (readInteger ⟨false, bits⟩ s.toList).map Int.toNat

end SoleRunner.Text
