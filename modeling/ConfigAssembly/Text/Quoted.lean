import ConfigAssembly.Text.Code
import ConfigAssembly.Text.Printable

/-!
# Quoted text

A text is quoted between apostrophes, or between double quotation marks when it holds an apostrophe
and no quotation mark. The quote and the backslash are escaped by a backslash, tab, line feed and
carriage return by a letter, and every other character that is not printable by its code in
hexadecimal: two digits, four or eight. So is a half of a surrogate pair, with four digits.
-/

namespace ConfigAssembly.Text

/-- The mark that encloses a quoted text. -/
def quoteFor (cs : List Char) : Char :=
  if cs.contains '\'' && !cs.contains '"' then '"' else '\''

/-- A number in hexadecimal, filled up with zeros to a width. -/
def hexadecimal (width n : Nat) : List Char :=
  let ds := Nat.toDigits 16 n
  List.replicate (width - ds.length) '0' ++ ds

/-- One character inside a text that `quote` encloses. -/
def quotedChar (quote c : Char) : List Char :=
  if c == quote || c == '\\' then ['\\', c]
  else if c == '\t' then ['\\', 't']
  else if c == '\n' then ['\\', 'n']
  else if c == '\r' then ['\\', 'r']
  else if isPrintable c then [c]
  else if c.toNat < 0x100 then ['\\', 'x'] ++ hexadecimal 2 c.toNat
  else if c.toNat < 0x10000 then ['\\', 'u'] ++ hexadecimal 4 c.toNat
  else ['\\', 'U'] ++ hexadecimal 8 c.toNat

/-- One code inside a text that `quote` encloses. -/
def quotedCode (quote : Char) (n : Nat) : List Char :=
  if isHalf n then ['\\', 'u'] ++ hexadecimal 4 n else quotedChar quote (Char.ofNat n)

/-- The quoted form of a text. -/
def quotedChars (cs : List Char) : List Char :=
  let quote := quoteFor cs
  quote :: (codes cs).flatMap (quotedCode quote) ++ [quote]

/-- The quoted form of a text. -/
def quoted (s : String) : String := String.ofList (quotedChars s.toList)

/-- Texts quoted and listed between brackets. -/
def quotedList (ss : List String) : String := "[" ++ ", ".intercalate (ss.map quoted) ++ "]"

end ConfigAssembly.Text
