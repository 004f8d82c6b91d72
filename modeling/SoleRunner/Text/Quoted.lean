import SoleRunner.Text.Escaped

/-!
# Text/Quoted — a text between quotes, with escapes

A text inside an inspected value stands between quotes.  Quotes, backslashes and the usual controls have
a short escape, the other characters that cannot be shown are written by their number in hexadecimal,
and everything else stands as it is.
-/

namespace SoleRunner.Text

/-- `n` in hexadecimal, in small letters. -/
def hex (n : Nat) : String := String.ofList (Nat.toDigits 16 n)

/-- One character between quotes. -/
def quoteChar (c : Char) : String :=
  if c = '\x00' then "\\0"
  else if c = '\t' then "\\t"
  else if c = '\n' then "\\n"
  else if c = '\r' then "\\r"
  else if c = '"' then "\\\""
  else if c = '\\' then "\\\\"
  else if isEscaped c then "\\u\x7b" ++ hex c.toNat ++ "\x7d"
  else String.singleton c

/-- `s` between quotes. -/
def quoted (s : String) : String := "\"" ++ String.join (s.toList.map quoteChar) ++ "\""

end SoleRunner.Text
