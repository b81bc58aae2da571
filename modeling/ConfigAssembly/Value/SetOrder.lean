import ConfigAssembly.Value

/-!
# Sets of numbers in their order

A set of numbers is shown in an order of its own, which depends on the numbers and on the order in
which they came: each has a residue modulo `2 ^ 61 - 1`, which says where its place is in a table of
a power of two many places, and one whose place is taken looks for another. `inSetOrder` gives the
items of the table in the order of their places. Other sets stay as they are.
-/

namespace ConfigAssembly.Value

/-- The modulus of residues. -/
def residueModulus : Nat := Nat.pow 2 61 - 1

/-- A residue with a sign; there is no `-1`. -/
def signedResidue (negative : Bool) (n : Nat) : Int :=
  let r : Int := n % residueModulus
  let r := if negative then -r else r
  if r == -1 then -2 else r

/-- The residue of a number. As `2 ^ 61` has the residue 1, a power of two counts by its exponent
modulo 61. -/
def residue? : Value → Option Int
  | .bool b => some (if b then 1 else 0)
  | .int i => some (signedResidue (i < 0) i.natAbs)
  | .float (.finite negative m e) => some (signedResidue negative (m * Nat.pow 2 (e.emod 61).toNat))
  | .float (.infinity negative) => some (if negative then -314159 else 314159)
  | _ => none

/-- A table: at each place nothing, or something that found its place there. -/
abbrev Places (α : Type) := Array (Option α)

/-- The number of places for a number of items. -/
def placesFor (n : Nat) : Nat := if n < 5 then 8 else Nat.pow 2 (2 * n).log2 * 2

/-- The places next to each other that are tried before another stretch is. -/
def stretch : Nat := 10

/-- The first free place of a stretch, which lies wholly in the table or is a single place. -/
def freeFrom? {α : Type} (t : Places α) (place : Nat) : Option Nat :=
  let width := if place + stretch ≤ t.size then stretch else 1
  ((List.range width).map (place + ·)).find? fun p => t[p]?.any (·.isNone)

/-- The place that something finds. The residue is used up bit by bit to choose the next stretch. -/
def findPlace {α : Type} (t : Places α) (fuel place rest : Nat) : Nat :=
  match fuel with
  | 0 => place
  | fuel + 1 =>
    match freeFrom? t place with
    | some p => p
    | none => findPlace t fuel ((place * 5 + 1 + rest / 32) % t.size) (rest / 32)

/-- Puts something into a table. -/
def putIn {α : Type} (t : Places α) (residue : Int) (x : α) : Places α :=
  let start := (residue.emod (Nat.pow 2 64)).toNat
  t.setIfInBounds (findPlace t (t.size + 64) (start % t.size) start) (some x)

/-- Items in the order in which a set shows them, given the values that they stand for. -/
def inSetOrder {α : Type} (values : List Value) (items : List α) : List α :=
  match values.mapM residue? with
  | none => items
  | some residues =>
    let start : Places α := Array.replicate (placesFor values.length) none
    ((residues.zip items).foldl (fun t (r, x) => putIn t r x) start).toList.filterMap id

end ConfigAssembly.Value
