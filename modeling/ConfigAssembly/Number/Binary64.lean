/-!
# Binary floating-point numbers of 64 bits

A finite number is a sign, a significand below `2 ^ 53` and an exponent of two that is at least
`-1074`; the significand reaches `2 ^ 52` unless the exponent is the least one, so every number has
one representation. `Binary64.ofQuotient` rounds an exact quotient to the nearest such number, a tie
to the even significand, in natural-number arithmetic.
-/

namespace ConfigAssembly

/-- A binary floating-point number of 64 bits. -/
inductive Binary64 where
  /-- Not a number. -/
  | nan
  /-- One of the two infinities. -/
  | infinity (negative : Bool)
  /-- The number `significand * 2 ^ exponent` with a sign, which zero has too. -/
  | finite (negative : Bool) (significand : Nat) (exponent : Int)
  deriving DecidableEq, Repr, Inhabited

namespace Binary64

/-- The least exponent. -/
def leastExponent : Int := -1074

/-- The greatest exponent of a finite number. -/
def greatestExponent : Int := 971

/-- Zero with a sign. -/
def zero (negative : Bool) : Binary64 := .finite negative 0 leastExponent

/-- The multiple of the unit nearest to `n / d`, a tie going to the even one. -/
def roundQuotient (n d : Nat) : Nat :=
  let q := n / d
  let r := n % d
  if 2 * r < d then q else if d < 2 * r then q + 1 else q + q % 2

/-- `n * 2 ^ e` as a quotient. -/
def timesPower (n : Nat) (e : Int) : Nat × Nat :=
  match e with
  | .ofNat k => (n * Nat.pow 2 k, 1)
  | .negSucc k => (n, Nat.pow 2 (k + 1))

/-- The quotient `n / d` divided by `2 ^ e`. -/
def overPower (n d : Nat) (e : Int) : Nat × Nat :=
  match e with
  | .ofNat k => (n, d * Nat.pow 2 k)
  | .negSucc k => (n * Nat.pow 2 (k + 1), d)

/-- The exponent at which a positive quotient has a significand of 53 bits, or the least exponent if
that is greater. -/
def exponentFor (n d : Nat) : Int :=
  let low : Int := (n.log2 : Int) - d.log2 - 53
  let (n', d') := overPower n d low
  max (if Nat.pow 2 53 * d' ≤ n' then low + 1 else low) leastExponent

/-- The number nearest to a quotient with a sign; beyond the greatest number it is an infinity. -/
def ofQuotient (negative : Bool) (n d : Nat) : Binary64 :=
  if n = 0 ∨ d = 0 then zero negative
  else
    let e := exponentFor n d
    let (n', d') := overPower n d e
    let m := roundQuotient n' d'
    let (m, e) := if m = Nat.pow 2 53 then (Nat.pow 2 52, e + 1) else (m, e)
    if greatestExponent < e then .infinity negative else .finite negative m e

/-- The number nearest to an integer. -/
def ofInt (i : Int) : Binary64 := ofQuotient (i < 0) i.natAbs 1

/-- The integer that a number equals, if it equals one. -/
def toInt? : Binary64 → Option Int
  | .nan | .infinity _ => none
  | .finite negative m e =>
    let (n, d) := timesPower m e
    if n % d = 0 then some (if negative then -(n / d : Nat) else (n / d : Nat)) else none

/-- The number with the other sign. -/
def neg : Binary64 → Binary64
  | .nan => .nan
  | .infinity negative => .infinity !negative
  | .finite negative m e => .finite (!negative) m e

/-- A number rounded from an integer significand and an exponent of two. -/
def ofScaled (i : Int) (e : Int) : Binary64 :=
  let (n, d) := timesPower i.natAbs e
  ofQuotient (i < 0) n d

/-- The significand with its sign. -/
def signed (negative : Bool) (m : Nat) : Int := if negative then -m else m

/-- The rounded sum. -/
def add : Binary64 → Binary64 → Binary64
  | .nan, _ => .nan
  | _, .nan => .nan
  | .infinity a, .infinity b => if a == b then .infinity a else .nan
  | .infinity a, _ => .infinity a
  | _, .infinity b => .infinity b
  | .finite a m e, .finite b n f =>
    if m = 0 ∧ n = 0 then zero (a && b)
    else
      let g := min e f
      ofScaled (signed a m * Nat.pow 2 (e - g).toNat + signed b n * Nat.pow 2 (f - g).toNat) g

/-- The rounded product. -/
def mul : Binary64 → Binary64 → Binary64
  | .nan, _ => .nan
  | _, .nan => .nan
  | .infinity a, .infinity b => .infinity (a != b)
  | .infinity a, .finite b n _ => if n = 0 then .nan else .infinity (a != b)
  | .finite a m _, .infinity b => if m = 0 then .nan else .infinity (a != b)
  | .finite a m e, .finite b n f =>
    if m = 0 ∨ n = 0 then zero (a != b)
    else
      let (p, q) := timesPower (m * n) (e + f)
      ofQuotient (a != b) p q

/-- Whether two numbers are equal as numbers: the zeros are, and nothing equals what is not a
number. -/
def sameNumber : Binary64 → Binary64 → Bool
  | .nan, _ => false
  | _, .nan => false
  | .infinity a, .infinity b => a == b
  | .finite a m e, .finite b n f => (m == 0 && n == 0) || (a == b && m == n && e == f)
  | _, _ => false

end Binary64
end ConfigAssembly
