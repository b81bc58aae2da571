import ConfigAssembly.Number.Binary64

/-!
# Shortest decimal digits

A positive binary number is written with the fewest decimal digits that read back as it, and among
those of that length with the ones nearest to it. `shortestDigits` looks at one decimal grid after
the other, from one digit to seventeen, and on each at the two grid points around the number.
-/

namespace ConfigAssembly.Binary64

/-- A nonnegative rational number as a quotient. -/
abbrev Quotient := Nat × Nat

/-- Order of quotients. -/
def Quotient.le (a b : Quotient) : Bool := a.1 * b.2 ≤ b.1 * a.2

/-- Strict order of quotients. -/
def Quotient.lt (a b : Quotient) : Bool := a.1 * b.2 < b.1 * a.2

/-- `n * 10 ^ g` as a quotient. -/
def timesTen (n : Nat) (g : Int) : Quotient :=
  match g with
  | .ofNat k => (n * Nat.pow 10 k, 1)
  | .negSucc k => (n, Nat.pow 10 (k + 1))

/-- The numbers that read back as a given one lie between `low` and `high`, which belong to them if
`closed`. -/
structure Interval where
  low : Quotient
  high : Quotient
  closed : Bool

/-- Whether a quotient lies in an interval. -/
def Interval.holds (i : Interval) (q : Quotient) : Bool :=
  if i.closed then i.low.le q && q.le i.high else i.low.lt q && q.lt i.high

/-- The numbers that round to `m * 2 ^ e`: half a unit on either side, but a quarter below a power
of two. -/
def roundingInterval (m : Nat) (e : Int) : Interval where
  low := timesPower (if m = Nat.pow 2 52 ∧ leastExponent < e then 4 * m - 1 else 4 * m - 2) (e - 2)
  high := timesPower (4 * m + 2) (e - 2)
  closed := m % 2 == 0

/-- The exponent of the power of ten at or below a positive quotient. -/
def decimalExponent (q : Quotient) : Int :=
  let p : Int := ((Nat.toDigits 10 q.1).length : Int) - (Nat.toDigits 10 q.2).length
  if (timesTen 1 p).le q then p else p - 1

/-- The distance of two quotients over the product of their denominators. -/
def distance (a b : Quotient) : Nat := ((a.1 * b.2 : Nat) - (b.1 * a.2 : Nat) : Int).natAbs

/-- The grid point next to `q` on the grid of multiples of `10 ^ g` that lies in the interval; of
two the nearer one, and of two equally near ones the even one. -/
def gridPoint? (i : Interval) (q : Quotient) (g : Int) : Option Nat :=
  let (tn, td) := timesTen 1 g
  let d := q.1 * td / (q.2 * tn)
  let below := timesTen d g
  let above := timesTen (d + 1) g
  match i.holds below, i.holds above with
  | false, false => none
  | true, false => some d
  | false, true => some (d + 1)
  | true, true =>
    -- both grid points have the same denominator, so their distances compare as they stand
    let x := distance q below
    let y := distance q above
    some (if x < y then d else if y < x then d + 1 else d + d % 2)

/-- Digits as a number together with the exponent of their grid; the first grid of at most `fuel`
more digits that has a point in the interval. -/
def searchDigits (i : Interval) (q : Quotient) (p : Int) : (fuel n : Nat) → Nat × Int
  | 0, n => ((timesTen q.1 (n - 1 - p)).1 / (q.2 * (timesTen 1 (n - 1 - p)).2), p - n + 1)
  | fuel + 1, n =>
    let g := p - n + 1
    match gridPoint? i q g with
    | some d => (d, g)
    | none => searchDigits i q p fuel (n + 1)

/-- The shortest digits of `m * 2 ^ e` for a positive `m`, without trailing zeros, and the place of
the decimal point counted from before the first digit. -/
def shortestDigits (m : Nat) (e : Int) : List Char × Int :=
  let q := timesPower m e
  let p := decimalExponent q
  let (d, g) := searchDigits (roundingInterval m e) q p 17 1
  let ds := Nat.toDigits 10 d
  ((ds.reverse.dropWhile (· == '0')).reverse, ds.length + g)

end ConfigAssembly.Binary64
