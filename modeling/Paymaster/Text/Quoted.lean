import Paymaster.Text.Glyphs
/-!
# Quoted texts

A text that is shown to an operator is put in double quotes. The quote, the backslash and the usual
controls are escaped by a letter; every other hidden or combining character is written by its code
point in braces; all else stands for itself.
-/

namespace Paymaster.Text

/-- The lower-case hexadecimal digits of a number, without leading zeros. -/
def hexDigits (n : Nat) : String := String.ofList (Nat.toDigits 16 n)

/-- A character by its code point, as in `\u\x7b301\x7d`. -/
def codePointEscape (c : Char) : String := "\\u\x7b" ++ hexDigits c.toNat ++ "\x7d"

/-- A character inside quotes; `quote` is the quote that has to be escaped. -/
def escapeChar (quote : Char) (c : Char) : String :=
  if c = '\x00' then "\\0"
  else if c = '\t' then "\\t"
  else if c = '\r' then "\\r"
  else if c = '\n' then "\\n"
  else if c = '\\' then "\\\\"
  else if c = quote then String.ofList ['\\', quote]
  else if isCombining c || isHidden c then codePointEscape c
  else c.toString

/-- The text in double quotes. -/
def quote (s : String) : String :=
  "\"" ++ String.join (s.toList.map (escapeChar '"')) ++ "\""

/-- The character in single quotes. -/
def quoteChar (c : Char) : String := "'" ++ escapeChar '\'' c ++ "'"

end Paymaster.Text
