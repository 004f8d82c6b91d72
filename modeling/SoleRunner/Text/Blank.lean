/-!
# Text/Blank — the blanks of Unicode, and what is left without them

A value read from the environment is taken without the blanks around it.  A blank is a character with
the property `White_Space`.
-/

namespace SoleRunner.Text

/-- The characters with the property `White_Space`. -/
def isBlank (c : Char) : Bool :=
  let n := c.val
  (0x9 ≤ n && n ≤ 0xD) || n == 0x20 || n == 0x85 || n == 0xA0 || n == 0x1680 ||
    (0x2000 ≤ n && n ≤ 0x200A) || n == 0x2028 || n == 0x2029 || n == 0x202F || n == 0x205F ||
    n == 0x3000

theorem isBlank_of_isWhitespace {c : Char} (h : c.isWhitespace) : isBlank c := by
  simp only [Char.isWhitespace, Bool.or_eq_true, decide_eq_true_eq] at h
  rcases h with ((rfl | rfl) | rfl) | rfl <;> decide

/-- The characters without the blanks at both ends. -/
def trimBlanks (cs : List Char) : List Char :=
  ((cs.dropWhile isBlank).reverse.dropWhile isBlank).reverse

/-- `s` without the blanks at both ends. -/
def trim (s : String) : String := String.ofList (trimBlanks s.toList)

/-- `s` without the blanks at both ends, in lower case.  Only words of the letters `a` to `z` other
than `k` are compared with it; no letter outside ASCII has one of those alone as its lower case, so the
case of ASCII letters is all that matters. -/
def word (s : String) : String := (trim s).toLower

end SoleRunner.Text
