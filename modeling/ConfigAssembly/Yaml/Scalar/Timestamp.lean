import ConfigAssembly.Text.Digit
import ConfigAssembly.Timestamp

/-!
# Timestamps in documents

A date, perhaps followed by a time of day, a fraction of a second and the distance from universal
time. `readTimestamp?` reads the parts and does not ask whether a calendar holds them.
-/

namespace ConfigAssembly.Yaml

open ConfigAssembly.Text

/-- The parts of a written timestamp. -/
structure WrittenTimestamp where
  year : Nat
  month : Nat
  day : Nat
  clock : Option Clock
  /-- Month and day have two digits each. -/
  full : Bool

/-- A number of exactly `n` digits. -/
def takeDigits? (n : Nat) (cs : List Char) : Option (Nat × List Char) :=
  let ds := cs.take n
  if ds.length == n && ds.all isAsciiDigit then some (digitsValue 10 ds, cs.drop n) else none

/-- A number of one or two digits; the flag tells that there are two. -/
def takeShort? (cs : List Char) : Option (Nat × Bool × List Char) :=
  match takeDigits? 2 cs with
  | some (n, rest) => some (n, true, rest)
  | none => (takeDigits? 1 cs).map fun (n, rest) => (n, false, rest)

/-- What follows a given character. -/
def after? (x : Char) : List Char → Option (List Char)
  | [] => none
  | c :: cs => if c == x then some cs else none

/-- A space or a tab. -/
def isGap (c : Char) : Bool := c == ' ' || c == '\t'

/-- What follows the gap between a date and a time of day. -/
def afterGap? : List Char → Option (List Char)
  | [] => none
  | c :: cs =>
    if c == 'T' || c == 't' then some cs else if isGap c then some (cs.dropWhile isGap) else none

/-- The distance from universal time in minutes, which must be all that is left. -/
def readOffset? (cs : List Char) : Option (Option Int) :=
  match cs.dropWhile isGap with
  | [] => if cs.isEmpty then some none else none
  | ['Z'] => some (some 0)
  | c :: cs => do
    if c != '+' && c != '-' then none
    let (hours, _, cs) ← takeShort? cs
    let (minutes, cs) ← match after? ':' cs with
      | none => some (0, cs)
      | some cs => takeDigits? 2 cs
    let distance : Int := hours * 60 + minutes
    if cs.isEmpty then some (some (if c == '-' then -distance else distance)) else none

/-- Digits after the point of a second as microseconds; more than six are cut off. -/
def microseconds (ds : List Char) : Nat := digitsValue 10 ((ds ++ List.replicate 6 '0').take 6)

/-- A time of day, which must be all that is left. -/
def readClock? (cs : List Char) : Option Clock := do
  let (hour, _, cs) ← takeShort? cs
  let (minute, cs) ← takeDigits? 2 (← after? ':' cs)
  let (second, cs) ← takeDigits? 2 (← after? ':' cs)
  let (fraction, cs) := match after? '.' cs with
    | none => ([], cs)
    | some cs => (cs.takeWhile isAsciiDigit, cs.dropWhile isAsciiDigit)
  let offset ← readOffset? cs
  some ⟨hour, minute, second, microseconds fraction, offset⟩

/-- A timestamp. -/
def readTimestamp? (cs : List Char) : Option WrittenTimestamp := do
  let (year, cs) ← takeDigits? 4 cs
  let (month, fullMonth, cs) ← takeShort? (← after? '-' cs)
  let (day, fullDay, cs) ← takeShort? (← after? '-' cs)
  let clock ← if cs.isEmpty then some none else (readClock? (← afterGap? cs)).map some
  some ⟨year, month, day, clock, fullMonth && fullDay⟩

end ConfigAssembly.Yaml
