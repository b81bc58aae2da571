import ConfigAssembly.Number.Shortest

/-!
# Written form of a floating-point number

`FloatFormat` holds the decisions of a written form: which decimal exponents are written without an
exponent part and how wide the exponent part is at least. `FloatFormat.standard` is the form in
which values are rendered; it always shows that a number is a floating-point number, by a point or
an exponent.
-/

namespace ConfigAssembly

/-- The decisions of a written form of floating-point numbers. -/
structure FloatFormat where
  /-- The least decimal exponent that is written positionally. -/
  leastPositional : Int
  /-- The first decimal exponent above those that are written positionally. -/
  endPositional : Int
  /-- The least number of digits of an exponent part. -/
  exponentWidth : Nat

/-- Positional from `0.0001` to below `1e+16`; an exponent has two digits at least. -/
def FloatFormat.standard : FloatFormat := ⟨-4, 16, 2⟩

/-- Digits with the decimal point at a place counted from before the first digit. -/
def positional (ds : List Char) (point : Int) : List Char :=
  if point ≤ 0 then ['0', '.'] ++ List.replicate (-point).toNat '0' ++ ds
  else if ds.length ≤ point then ds ++ List.replicate (point - ds.length).toNat '0' ++ ['.', '0']
  else ds.take point.toNat ++ '.' :: ds.drop point.toNat

/-- Digits with a point after the first one and a decimal exponent. -/
def FloatFormat.scientific (f : FloatFormat) (ds : List Char) (exponent : Int) : List Char :=
  let es := Nat.toDigits 10 exponent.natAbs
  let mantissa := match ds with
    | [] => ['0']
    | [d] => [d]
    | d :: rest => d :: '.' :: rest
  mantissa ++ ['e', if exponent < 0 then '-' else '+'] ++
    List.replicate (f.exponentWidth - es.length) '0' ++ es

/-- The written form of a number. -/
def FloatFormat.render (f : FloatFormat) : Binary64 → List Char
  | .nan => ['n', 'a', 'n']
  | .infinity negative => (if negative then ['-'] else []) ++ ['i', 'n', 'f']
  | .finite negative m e =>
    let sign := if negative then ['-'] else []
    if m = 0 then sign ++ ['0', '.', '0']
    else
      let (ds, point) := Binary64.shortestDigits m e
      sign ++
        if f.leastPositional ≤ point - 1 ∧ point - 1 < f.endPositional then positional ds point
        else f.scientific ds (point - 1)

/-- The standard written form of a number. -/
def Binary64.text (x : Binary64) : String := String.ofList (FloatFormat.standard.render x)

end ConfigAssembly
