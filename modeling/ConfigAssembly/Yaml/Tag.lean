import ConfigAssembly.Yaml.Scalar.Timestamp

/-!
# Tags

A tag says what kind of thing a node is. Plain scalars without a tag have the one that their text
suggests, which `Tag.ofPlain` finds: words for truth values and for nothing, numbers, timestamps,
and the two marks that are special as keys.
-/

namespace ConfigAssembly.Yaml

open ConfigAssembly.Text

/-- The kind of a node. -/
inductive Tag where
  | null
  | bool
  | int
  | float
  | binary
  | timestamp
  | str
  | sequence
  | mapping
  | set
  /-- Pairs in their order, each written as a mapping of one entry. -/
  | pairs
  /-- The key whose value is merged into the mapping. -/
  | merge
  /-- The key whose value stands for the mapping where a scalar is expected. -/
  | default
  /-- The name of a file whose content comes in the place of the node. -/
  | inclusion
  /-- Anything without a meaning. -/
  | other
  deriving DecidableEq, Repr

namespace Tag

/-- The stem of the standard tags. -/
def standardStem : String := "tag:yaml.org,2002:"

/-- The standard tags by what follows their stem, and the tag of inclusions. -/
def known : List (String × Tag) := [
  ("null", null), ("bool", bool), ("int", int), ("float", float), ("binary", binary),
  ("timestamp", timestamp), ("str", str), ("seq", sequence), ("map", mapping), ("set", set),
  ("omap", pairs), ("pairs", pairs), ("merge", merge), ("value", default)].map
    (fun (name, t) => (standardStem ++ name, t)) ++ [("!include", inclusion)]

/-- The kind that a written tag names. -/
def ofText (s : String) : Tag := (known.lookup s).getD other

/-! ## Plain scalars -/

/-- A digit or a low line. -/
def isSpacedDigit (c : Char) : Bool := isAsciiDigit c || c == '_'

/-- Drops a sign. -/
def dropSign : List Char → List Char
  | [] => []
  | c :: cs => if c == '-' || c == '+' then cs else c :: cs

/-- Nothing, or an exponent: its sign must be written. -/
def isExponent : List Char → Bool
  | [] => true
  | e :: s :: d :: ds =>
    (e == 'e' || e == 'E') && (s == '-' || s == '+') && (d :: ds).all isAsciiDigit
  | _ => false

/-- Whether a second digit of a part below 60 comes next. -/
def secondDigit (d : Char) (cs : List Char) : Bool := d ≤ '5' && cs.head?.any isAsciiDigit

/-- What follows the parts of a number to the base 60 after the first, each written after a colon
with one or two digits and below 60. At least one part is there. -/
def dropSixties? : List Char → Option (List Char)
  | [] => none
  | [_] => none
  | colon :: d :: cs =>
    if colon != ':' || !isAsciiDigit d then none
    else
      let rest := if secondDigit d cs then cs.tail else cs
      if rest.head? == some ':' then dropSixties? rest else some rest
termination_by cs => cs.length
decreasing_by
  have := List.length_tail (l := cs)
  simp only [List.length_cons]
  split <;> omega

/-- A number that begins with a digit. -/
def dropNumber? : List Char → Option (List Char)
  | [] => none
  | d :: ds => if isAsciiDigit d then some (ds.dropWhile isSpacedDigit) else none

/-- A floating-point number with a sign removed: digits with a point, or parts to the base 60 of
which the last has a point. -/
def isSignedFloat (cs : List Char) : Bool :=
  match dropNumber? cs with
  | none => [".inf", ".Inf", ".INF"].contains (String.ofList cs)
  | some ('.' :: rest) => isExponent (rest.dropWhile isSpacedDigit)
  | some rest => match dropSixties? rest with
    | some ('.' :: rest) => rest.all isSpacedDigit
    | _ => false

/-- A floating-point number that begins with its point, or the word for what is no number. -/
def isPointedFloat : List Char → Bool
  | '.' :: cs => match dropNumber? cs with
    | some rest => isExponent rest
    | none => ["nan", "NaN", "NAN"].contains (String.ofList cs)
  | _ => false

/-- A floating-point number. -/
def isFloat (cs : List Char) : Bool := isSignedFloat (dropSign cs) || isPointedFloat cs

/-- An integer with a sign removed: binary, octal, hexadecimal, decimal or to the base 60. -/
def isUnsignedInt : List Char → Bool
  | [] => false
  | ['0'] => true
  | '0' :: 'b' :: d :: ds => (d :: ds).all fun c => c == '0' || c == '1' || c == '_'
  | '0' :: 'x' :: d :: ds => (d :: ds).all fun c => isHexDigit c || c == '_'
  | '0' :: ds => ds.all fun c => ('0' ≤ c && c ≤ '7') || c == '_'
  | d :: ds =>
    isAsciiDigit d &&
      match ds.dropWhile isSpacedDigit with
      | [] => true
      | rest => dropSixties? rest == some []

/-- An integer. -/
def isInt (cs : List Char) : Bool := isUnsignedInt (dropSign cs)

/-- Spellings of a word: in lower case, with a capital letter, in upper case. -/
def spellings (w : String) : List String :=
  [w, String.ofList (match w.toList with | [] => [] | c :: cs => c.toUpper :: cs),
    String.ofList (w.toList.map Char.toUpper)]

/-- The words for truth values. -/
def truthWords : List (String × Bool) :=
  [("yes", true), ("no", false), ("true", true), ("false", false), ("on", true), ("off", false)]

/-- A word for a truth value. -/
def isTruthWord (s : String) : Bool := truthWords.any fun (w, _) => (spellings w).contains s

/-- A timestamp; month and day of a date alone have two digits. -/
def isTimestamp (cs : List Char) : Bool :=
  match readTimestamp? cs with
  | none => false
  | some t => t.full || t.clock.isSome

/-- The tag that a text suggests, apart from the empty one. -/
def ofWord (cs : List Char) : Tag :=
  let s := String.ofList cs
  if isTruthWord s then bool
  else if isFloat cs then float
  else if isInt cs then int
  else if s == "<<" then merge
  else if s == "~" || (spellings "null").contains s then null
  else if isTimestamp cs then timestamp
  else if s == "=" then default
  else if ["!", "&", "*"].contains s then other
  else str

/-- The tag of a plain scalar. A line break at its end is no part of the word. -/
def ofPlain (s : String) : Tag :=
  match s.toList with
  | [] => null
  | ['\n'] => str
  | cs => ofWord (if cs.getLast? == some '\n' then cs.dropLast else cs)

end Tag
end ConfigAssembly.Yaml
