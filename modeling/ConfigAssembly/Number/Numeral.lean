import ConfigAssembly.Number.Binary64
import ConfigAssembly.Text.Blank
import ConfigAssembly.Text.Digit

/-!
# Numerals

Reading of written integers and floating-point numbers. Digits of every script are accepted and
blanks around the numeral ignored; an underscore may stand between two digits. `readInteger` reads a
numeral of a given base, or of the base that its mark (`0x`, `0o`, `0b`) tells; `readFloat?` reads a
decimal numeral and rounds it correctly.
-/

namespace ConfigAssembly.Numeral

open ConfigAssembly.Text

/-- Digits of any script become ASCII digits and white space a space; any other character outside
ASCII becomes one that no numeral holds. -/
def plainChar (c : Char) : Char :=
  if c.toNat < 127 then c
  else if isBlank c then ' '
  else match decimalValue? c with
    | some d => Char.ofNat (48 + d)
    | none => '?'

/-- A text with its digits and blanks in ASCII. -/
def plainForm (s : String) : List Char := s.toList.map plainChar

/-- Splits off a sign; the flag tells a minus. -/
def takeSign : List Char → Bool × List Char
  | '-' :: cs => (true, cs)
  | '+' :: cs => (false, cs)
  | cs => (false, cs)

/-! ## Integers -/

/-- The most digits a decimal integer may have. -/
def longestDecimal : Nat := 4300

/-- Why a text is no integer numeral. -/
inductive IntegerFault where
  /-- The text has no such form. -/
  | malformed
  /-- A decimal numeral with more digits than are allowed. -/
  | tooLong (digits : Nat)
  deriving DecidableEq, Repr

/-- A digit of a base. -/
def isDigitOf (base : Nat) (c : Char) : Bool :=
  match digitValue? c with
  | some d => d < base
  | none => false

/-- The base of a numeral that tells it by its mark. A numeral that begins with a zero and has no
mark may only denote zero, which the flag says. -/
def markedBase : List Char → Nat × Bool
  | '0' :: c :: _ =>
    if c == 'x' || c == 'X' then (16, false)
    else if c == 'o' || c == 'O' then (8, false)
    else if c == 'b' || c == 'B' then (2, false)
    else (10, true)
  | '0' :: [] => (10, true)
  | _ => (10, false)

/-- The mark of a base, without the zero before it. -/
def isMarkOf (base : Nat) (c : Char) : Bool :=
  (base == 16 && (c == 'x' || c == 'X')) || (base == 8 && (c == 'o' || c == 'O')) ||
    (base == 2 && (c == 'b' || c == 'B'))

/-- Drops the mark of the base and one underscore after it. -/
def dropMark (base : Nat) : List Char → List Char
  | '0' :: c :: cs =>
    if isMarkOf base c then
      match cs with
      | '_' :: rest => rest
      | _ => cs
    else '0' :: c :: cs
  | cs => cs

/-- Every underscore stands between two other characters of the run. -/
def wellSpaced : List Char → Bool
  | [] => true
  | '_' :: _ => false
  | [_] => true
  | _ :: '_' :: cs => wellSpaced cs && !cs.isEmpty
  | _ :: c :: cs => wellSpaced (c :: cs)

/-- Reads an integer numeral of a base, or of the base that its mark tells if `base` is zero. -/
def readInteger (base : Nat) (s : String) : Except IntegerFault Int :=
  let (negative, cs) := takeSign ((plainForm s).dropWhile isFormatBlank)
  let (radix, zeroOnly) := if base == 0 then markedBase cs else (base, false)
  let cs := dropMark radix cs
  let inRun := fun c => isDigitOf radix c || c == '_'
  let run := cs.takeWhile inRun
  let ds := run.filter (· != '_')
  let value := digitsValue radix ds
  if !wellSpaced run then .error .malformed
  else if radix == 10 && longestDecimal < ds.length then .error (.tooLong ds.length)
  else if ds.isEmpty || (zeroOnly && value != 0) ||
      !((cs.dropWhile inRun).dropWhile isFormatBlank).isEmpty then
    .error .malformed
  else .ok (if negative then -value else value)

/-! ## Floating-point numbers -/

/-- Removes the underscores of a numeral, each of which must stand between two digits. -/
def dropUnderscores? (previous : Char) : List Char → Option (List Char)
  | [] => some []
  | '_' :: c :: cs =>
    if isAsciiDigit previous && isAsciiDigit c then (dropUnderscores? c cs).map (c :: ·) else none
  | ['_'] => none
  | c :: cs => (dropUnderscores? c cs).map (c :: ·)

/-- The greatest exponent that is told apart from larger ones after so many digits: with it a number
is infinite or zero in any case. -/
def greatestExponentAfter (digits : Nat) : Nat := digits + 400

/-- The exponent part of a decimal numeral, which must be all that is left. Exponents beyond
`greatest` count as `greatest`. -/
def readExponent? (greatest : Nat) : List Char → Option Int
  | [] => some 0
  | c :: cs =>
    if c == 'e' || c == 'E' then
      let (negative, ds) := takeSign cs
      if ds.isEmpty || !ds.all isAsciiDigit then none
      else
        let n : Int := min (digitsValue 10 ds) greatest
        some (if negative then -n else n)
    else none

/-- The number `digits * 10 ^ exponent`. -/
def ofDecimal (negative : Bool) (digits : Nat) (exponent : Int) : Binary64 :=
  match exponent with
  | .ofNat k => .ofQuotient negative (digits * Nat.pow 10 k) 1
  | .negSucc k => .ofQuotient negative digits (Nat.pow 10 (k + 1))

/-- A decimal numeral without its sign. -/
def readUnsigned? (negative : Bool) (cs : List Char) : Option Binary64 :=
  let whole := cs.takeWhile isAsciiDigit
  let rest := cs.dropWhile isAsciiDigit
  let (fraction, rest) := match rest with
    | '.' :: r => (r.takeWhile isAsciiDigit, r.dropWhile isAsciiDigit)
    | r => ([], r)
  if whole.isEmpty && fraction.isEmpty then none
  else (readExponent? (greatestExponentAfter (whole.length + fraction.length)) rest).map fun e =>
    ofDecimal negative (digitsValue 10 (whole ++ fraction)) (e - fraction.length)

/-- Reads a decimal numeral, an infinity (`inf` or `infinity`) or `nan`, the words in any case. -/
def readFloat? (s : String) : Option Binary64 :=
  match dropUnderscores? ' ' (trimBy isFormatBlank (plainForm s)) with
  | none => none
  | some cs =>
    let (negative, cs) := takeSign cs
    match String.ofList (cs.map Char.toLower) with
    | "inf" | "infinity" => some (.infinity negative)
    | "nan" => some .nan
    | _ => readUnsigned? negative cs

end ConfigAssembly.Numeral
