import ConfigAssembly.Text.Case.Table
import ConfigAssembly.Text.Case.Context

/-!
# Letter case

Lower and upper case of a text by the full mappings of Unicode. Names of elements, attributes,
plugins and enumeration members are compared by `lower`.
-/

namespace ConfigAssembly.Text

/-- The character that a list of shifts gives for a code point, if one of its runs holds it. -/
def shifted? (runs : List (Nat × Nat × Nat × Int)) (c : Char) : Option Char :=
  (runs.find? fun (first, last, step, _) =>
    first ≤ c.toNat && c.toNat ≤ last && (c.toNat - first) % step == 0).map
    fun (_, _, _, shift) => Char.ofNat (Int.toNat (c.toNat + shift))

/-- The lower case of one character, without regard to its neighbours. -/
def lowerChar (c : Char) : List Char :=
  if c.toNat < 128 then [c.toLower]
  else if c.toNat == 0x130 then ['i', Char.ofNat 0x307]
  else [(shifted? lowerShifts c).getD c]

/-- The upper case of one character. -/
def upperChar (c : Char) : List Char :=
  if c.toNat < 128 then [c.toUpper]
  else match upperExpansions.find? (·.1 == c.toNat) with
    | some (_, ns) => ns.map Char.ofNat
    | none => [(shifted? upperShifts c).getD c]

/-- Whether the first character that is no mark is a letter with case. -/
def letterComes (cs : List Char) : Bool :=
  match cs.dropWhile isCaseIgnorable with
  | [] => false
  | c :: _ => isCased c

/-- Lower case, given the characters already passed, the last one first. A capital sigma ends a word
when a letter comes before it and none after it. -/
def lowerFrom (passed : List Char) : List Char → List Char
  | [] => []
  | c :: cs =>
    (if c.toNat == 0x3a3 then
        [if letterComes passed && !letterComes cs then Char.ofNat 0x3c2 else Char.ofNat 0x3c3]
      else lowerChar c) ++ lowerFrom (c :: passed) cs

/-- The lower case of a text. -/
def lower (s : String) : String := String.ofList (lowerFrom [] s.toList)

/-- The upper case of a text. -/
def upper (s : String) : String := String.ofList (s.toList.flatMap upperChar)

/-- Two names match when they agree but for case. -/
def sameName (a b : String) : Bool := lower a == lower b

/-- Names are the same if they are the same in lower case. -/
theorem sameName_iff {a b : String} : sameName a b = true ↔ lower a = lower b := by
  simp [sameName]

/-- A name is the same as itself. -/
@[simp] theorem sameName_self (a : String) : sameName a a = true := by
  simp [sameName]

end ConfigAssembly.Text
