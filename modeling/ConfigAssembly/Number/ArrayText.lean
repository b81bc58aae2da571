import ConfigAssembly.Number.Shortest

/-!
# Written form of arrays of numbers

The items of an array are written in one form, positional or with exponents, and with their points
below one another. `ArrayFormat` holds the decisions: how many digits there are after the point,
when exponents are written, how wide a line is, and from which length on only the items at the ends
are shown.
-/

namespace ConfigAssembly

open Binary64

/-- The decisions of the written form of arrays. -/
structure ArrayFormat where
  /-- The most digits after the point. -/
  precision : Nat
  /-- The least magnitude for which exponents are written. -/
  large : Quotient
  /-- The magnitude below which exponents are written. -/
  small : Quotient
  /-- The ratio of the greatest and the least magnitude beyond which exponents are written. -/
  spread : Quotient
  /-- The least number of digits of an exponent. -/
  exponentWidth : Nat
  lineWidth : Nat
  /-- The length of the longest array that is shown whole. -/
  longest : Nat
  /-- The number of items at either end of a longer array that are shown. -/
  edge : Nat

/-- The exact value of a finite number without its sign. -/
def Binary64.magnitude? : Binary64 → Option Quotient
  | .finite _ m e => some (timesPower m e)
  | _ => none

/-- Eight digits after the point, positional from `0.0001` to below `1e8` unless the magnitudes are
apart by a factor of more than 1000. -/
def ArrayFormat.standard : ArrayFormat :=
  ⟨8, (Nat.pow 10 8, 1), ((ofQuotient false 1 10000).magnitude?).getD (1, 10000), (1000, 1),
    2, 75, 1000, 3⟩

/-- A number on its way to its written form. -/
structure NumberParts where
  /-- The digits before the point. -/
  whole : List Char
  /-- The digits after the point, without zeros at the end. -/
  fraction : List Char
  exponent : Int

/-- Characters without zeros at their end. -/
def withoutZeros (cs : List Char) : List Char := (cs.reverse.dropWhile (· == '0')).reverse

/-- The multiple of `10 ^ g` nearest to a quotient, a tie going to the even one. -/
def nearestMultiple (q : Quotient) (g : Int) : Nat :=
  let (n, d) := timesTen 1 g
  roundQuotient (q.1 * d) (q.2 * n)

/-- A number of a fixed number of digits. -/
def digitsOfWidth (width n : Nat) : List Char :=
  let ds := Nat.toDigits 10 n
  List.replicate (width - ds.length) '0' ++ ds

namespace ArrayFormat

variable (f : ArrayFormat)

/-- The positional form of a positive number: its shortest digits if they are few enough, else those
of the number rounded. -/
def positionalParts (m : Nat) (e : Int) : NumberParts :=
  let (ds, point) := shortestDigits m e
  if (ds.length : Int) - point ≤ f.precision then
    if point ≤ 0 then ⟨['0'], List.replicate (-point).toNat '0' ++ ds, 0⟩
    else ⟨(ds ++ List.replicate (point.toNat - ds.length) '0').take point.toNat,
      ds.drop point.toNat, 0⟩
  else
    let n := nearestMultiple (timesPower m e) (-f.precision)
    ⟨Nat.toDigits 10 (n / Nat.pow 10 f.precision),
      withoutZeros (digitsOfWidth f.precision (n % Nat.pow 10 f.precision)), 0⟩

/-- The form with an exponent of a positive number: its shortest digits if they are few enough, else
those of the number rounded. -/
def scientificParts (m : Nat) (e : Int) : NumberParts :=
  let (ds, point) := shortestDigits m e
  if ds.length ≤ f.precision + 1 then ⟨ds.take 1, ds.drop 1, point - 1⟩
  else
    let n := nearestMultiple (timesPower m e) (point - 1 - f.precision)
    let rounded := Nat.toDigits 10 n
    ⟨rounded.take 1, withoutZeros (rounded.drop 1),
      point - 1 + (rounded.length - (f.precision + 1) : Nat)⟩

/-- The parts of a finite number, its sign among the digits before the point. -/
def parts? (scientific : Bool) : Binary64 → Option NumberParts
  | .finite negative m e =>
    let p :=
      if m = 0 then ⟨['0'], [], 0⟩
      else if scientific then f.scientificParts m e else f.positionalParts m e
    some { p with whole := if negative then '-' :: p.whole else p.whole }
  | _ => none

/-- Whether the items are written with exponents. -/
def isScientific (xs : List Binary64) : Bool :=
  match (xs.filterMap magnitude?).filter (·.1 != 0) with
  | [] => false
  | q :: qs =>
    let most := qs.foldl (fun a b => if a.le b then b else a) q
    let least := qs.foldl (fun a b => if a.le b then a else b) q
    f.large.le most || least.lt f.small ||
      match ofQuotient false (most.1 * least.2) (most.2 * least.1) with
      | .finite _ m e => f.spread.lt (timesPower m e)
      | .infinity _ => true
      | .nan => false

/-- Characters behind as many spaces as fill a width. -/
def padLeft (width : Nat) (cs : List Char) : List Char :=
  List.replicate (width - cs.length) ' ' ++ cs

/-- Characters with as many others behind them as fill a width. -/
def padRight (width : Nat) (c : Char) (cs : List Char) : List Char :=
  cs ++ List.replicate (width - cs.length) c

/-- The greatest of some numbers. -/
def greatest (ns : List Nat) : Nat := ns.foldl max 0

/-- A number that is not finite. -/
def endlessText : Binary64 → List Char
  | .infinity true => ['-', 'i', 'n', 'f']
  | .infinity false => ['i', 'n', 'f']
  | _ => ['n', 'a', 'n']

/-- The items of an array, all of one width. -/
def items (xs : List Binary64) : List String :=
  let scientific := f.isScientific xs
  let finite := xs.filterMap (f.parts? scientific)
  let fraction := greatest (finite.map (·.fraction.length))
  let exponent := greatest (f.exponentWidth :: finite.map fun p =>
    (Nat.toDigits 10 p.exponent.natAbs).length)
  let right := if scientific then exponent + 2 + fraction else fraction
  let endless := xs.filter fun x => (f.parts? scientific x).isNone
  let left := greatest (finite.map (·.whole.length) ++
    endless.map fun x => (endlessText x).length - (right + 1))
  xs.map fun x => String.ofList <|
    match f.parts? scientific x with
    | none => padLeft (left + right + 1) (endlessText x)
    | some p =>
      if scientific then
        padLeft left p.whole ++ '.' :: padRight fraction '0' p.fraction ++
          ['e', if p.exponent < 0 then '-' else '+'] ++ digitsOfWidth exponent p.exponent.natAbs
      else padLeft left p.whole ++ '.' :: padRight fraction ' ' p.fraction

/-- Adds a word to the last of some lines, or begins another line with it if it does not fit. A line
is not left without a word. -/
def addWord (indent : List Char) (width : Nat) (lines : List Char × List Char) (word : List Char) :
    List Char × List Char :=
  let (before, line) := lines
  if width < line.length + word.length && indent.length < line.length then
    (before ++ (line.reverse.dropWhile (· == ' ')).reverse ++ ['\n'], indent ++ word)
  else (before, line ++ word)

/-- Words in lines, separated from one another. Every line but the first is indented; the first one
has as much room. -/
def inLines (indent width : Nat) (separator : String) : List String → String
  | [] => ""
  | w :: ws =>
    let margin := List.replicate indent ' '
    let (before, line) := ws.foldl
      (fun (before, line) w => addWord margin width (before, line ++ separator.toList) w.toList)
      ([], margin ++ w.toList)
    String.ofList ((before ++ line).drop indent)

/-- The items that are shown of an array. -/
def shownItems (xs : List Binary64) : List String :=
  if xs.length ≤ f.longest then f.items xs
  else
    let ends := f.items (xs.take f.edge ++ xs.drop (xs.length - f.edge))
    ends.take f.edge ++ "..." :: ends.drop f.edge

/-- An array between brackets. `margin` is the room that a word before it takes, and `after` that of
what follows it. -/
def bracketed (margin after : Nat) (separator : String) (xs : List Binary64) : String :=
  "[" ++ inLines (margin + 1) (f.lineWidth - after - 1) separator (f.shownItems xs) ++ "]"

/-- An array as it is printed. -/
def text (xs : List Binary64) : String := f.bracketed 0 0 " " xs

/-- An array inside another value. What is said behind the items stands on a line of its own if it
does not fit. -/
def shown (xs : List Binary64) : String :=
  if xs.isEmpty then "array([], dtype=float64)"
  else
    let body := "array(" ++ f.bracketed 6 1 ", " xs
    if xs.length ≤ f.longest then body ++ ")"
    else
      let length := "shape=(" ++ toString xs.length ++ ",))"
      let lastLine := ((body ++ ",").toList.reverse.takeWhile (· != '\n')).length
      body ++ "," ++
        (if f.lineWidth < lastLine + length.length + 1 then "\n      " else " ") ++ length

end ArrayFormat
end ConfigAssembly
