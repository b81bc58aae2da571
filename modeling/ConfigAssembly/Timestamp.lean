/-!
# Timestamps

A date, or a time of a day given to the microsecond, perhaps with its distance from universal time.
`Timestamp.make` refuses what no calendar holds, the first wrong part from year to second being the
one named.
-/

namespace ConfigAssembly

/-- A time of day. -/
structure Clock where
  hour : Nat
  minute : Nat
  second : Nat
  microsecond : Nat
  /-- Minutes ahead of universal time, if that is known. -/
  offset : Option Int
  deriving DecidableEq, Repr

/-- A date, perhaps with a time of day. -/
structure Timestamp where
  year : Nat
  month : Nat
  day : Nat
  clock : Option Clock
  deriving DecidableEq, Repr

/-- Why parts make no timestamp. -/
inductive TimestampFault where
  | year (year : Nat)
  | month
  | day
  | hour
  | minute
  | second
  /-- A distance from universal time of a day or more, in minutes. -/
  | offset (minutes : Int)
  deriving DecidableEq, Repr

/-- A span of time in days and seconds, the seconds never negative, as it is shown in a message. -/
def spanText (minutes : Int) : String :=
  let seconds := minutes * 60
  let days := Int.fdiv seconds 86400
  let rest := Int.fmod seconds 86400
  let parts := (if days = 0 then [] else ["days=" ++ toString days]) ++
    (if rest = 0 then [] else ["seconds=" ++ toString rest])
  "datetime.timedelta(" ++ (if parts.isEmpty then "0" else ", ".intercalate parts) ++ ")"

/-- What is wrong, in words. -/
def TimestampFault.message : TimestampFault → String
  | .year y => "year " ++ toString y ++ " is out of range"
  | .month => "month must be in 1..12"
  | .day => "day is out of range for month"
  | .hour => "hour must be in 0..23"
  | .minute => "minute must be in 0..59"
  | .second => "second must be in 0..59"
  | .offset minutes =>
    "offset must be a timedelta strictly between -timedelta(hours=24) and " ++
      "timedelta(hours=24), not " ++ spanText minutes ++ "."

namespace Timestamp

/-- A leap year of the Gregorian calendar. -/
def isLeap (y : Nat) : Bool := y % 4 == 0 && (y % 100 != 0 || y % 400 == 0)

/-- The days of a month. -/
def daysIn (y m : Nat) : Nat :=
  if m == 2 then (if isLeap y then 29 else 28)
  else if m == 4 || m == 6 || m == 9 || m == 11 then 30 else 31

/-- Checks the parts of a timestamp; the distance from universal time is looked at first. -/
def make (year month day : Nat) (clock : Option Clock) : Except TimestampFault Timestamp := do
  if let some ⟨_, _, _, _, some offset⟩ := clock then
    if 1440 ≤ offset.natAbs then throw (.offset offset)
  if year < 1 ∨ 9999 < year then throw (.year year)
  if month < 1 ∨ 12 < month then throw .month
  if day < 1 ∨ daysIn year month < day then throw .day
  if let some c := clock then
    if 23 < c.hour then throw .hour
    if 59 < c.minute then throw .minute
    if 59 < c.second then throw .second
  pure ⟨year, month, day, clock⟩

/-- A number in decimal, filled up with zeros to a width. -/
def padded (width n : Nat) : String :=
  let ds := Nat.toDigits 10 n
  String.ofList (List.replicate (width - ds.length) '0' ++ ds)

/-- Minutes ahead of universal time as hours and minutes with a sign. -/
def offsetText (minutes : Int) : String :=
  (if minutes < 0 then "-" else "+") ++ padded 2 (minutes.natAbs / 60) ++ ":" ++
    padded 2 (minutes.natAbs % 60)

/-- The written form: the date, then the time of day, its fraction of a second if it has one, and
the distance from universal time. -/
def text (t : Timestamp) : String :=
  padded 4 t.year ++ "-" ++ padded 2 t.month ++ "-" ++ padded 2 t.day ++
  match t.clock with
  | none => ""
  | some c =>
    " " ++ padded 2 c.hour ++ ":" ++ padded 2 c.minute ++ ":" ++ padded 2 c.second ++
    (if c.microsecond = 0 then "" else "." ++ padded 6 c.microsecond) ++
    match c.offset with
    | none => ""
    | some o => offsetText o

/-- The form in which a timestamp is shown inside another value. -/
def shown (t : Timestamp) : String :=
  let date := [toString t.year, toString t.month, toString t.day]
  match t.clock with
  | none => "datetime.date(" ++ ", ".intercalate date ++ ")"
  | some c =>
    let time := [toString c.hour, toString c.minute] ++
      (if c.second = 0 ∧ c.microsecond = 0 then [] else [toString c.second]) ++
      (if c.microsecond = 0 then [] else [toString c.microsecond])
    let zone := match c.offset with
      | none => []
      | some 0 => ["tzinfo=datetime.timezone.utc"]
      | some o => ["tzinfo=datetime.timezone(" ++ spanText o ++ ")"]
    "datetime.datetime(" ++ ", ".intercalate (date ++ time ++ zone) ++ ")"

/-- Days since the first day of the first year. -/
def dayNumber (y m d : Nat) : Nat :=
  let before := y - 1
  before * 365 + before / 4 - before / 100 + before / 400 +
    (List.range (m - 1)).foldl (fun days i => days + daysIn y (i + 1)) 0 + d

/-- Microseconds since the first day of the first year, by universal time if the distance from it is
known. -/
def instant (t : Timestamp) (c : Clock) : Int :=
  (((dayNumber t.year t.month t.day * 24 + c.hour : Int) * 60 + c.minute - c.offset.getD 0) * 60 +
    c.second) * 1000000 + c.microsecond

/-- Two timestamps agree when they are the same date, or the same time of day on clocks that both
show universal time or both do not. -/
def same (a b : Timestamp) : Bool :=
  match a.clock, b.clock with
  | none, none => a == b
  | some c, some d => c.offset.isSome == d.offset.isSome && a.instant c == b.instant d
  | _, _ => false

end Timestamp
end ConfigAssembly
