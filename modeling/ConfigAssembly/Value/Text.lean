import ConfigAssembly.Value.SetOrder
import ConfigAssembly.Number.ArrayText
import ConfigAssembly.Number.FloatText
import ConfigAssembly.Text.Quoted

/-!
# Values as text

`Value.text` is the text that stands for a value in a configuration and in messages; a text stands
for itself. `Value.shown` is the form of a value inside another one, in which a text is quoted.
-/

namespace ConfigAssembly

open ConfigAssembly.Text

/-- A sequence of bytes between quotes. -/
def shownBytes (bs : List UInt8) : String :=
  let cs := bs.map fun b => Char.ofNat b.toNat
  let quote := quoteFor cs
  let one := fun (c : Char) =>
    if c == quote || c == '\\' then ['\\', c]
    else if c == '\t' then ['\\', 't']
    else if c == '\n' then ['\\', 'n']
    else if c == '\r' then ['\\', 'r']
    else if 32 ≤ c.toNat && c.toNat < 127 then [c]
    else ['\\', 'x'] ++ hexadecimal 2 c.toNat
  String.ofList ('b' :: quote :: cs.flatMap one ++ [quote])

/-- Items between two marks, separated by commas. -/
def enclosed (first : Char) (items : List String) (last : Char) : String :=
  String.singleton first ++ ", ".intercalate items ++ String.singleton last

/-- Items between parentheses; a single one is followed by a comma. -/
def shownTuple (items : List String) : String :=
  match items with
  | [x] => "(" ++ x ++ ",)"
  | xs => enclosed '(' xs ')'

/-- A truth value. -/
def shownBool (b : Bool) : String := if b then "True" else "False"

/-- A text or its absence. -/
def shownOption (s : Option String) : String :=
  match s with
  | some s => quoted s
  | none => "None"

/-- The form of a collection within itself. -/
def CollectionKind.ellipsis : CollectionKind → String
  | .list => "[...]"
  | .tuple => "(...)"
  | .dict => "\x7b...\x7d"

/-- A plugin class. -/
def shownClass (moduleName name : String) : String :=
  "<class '" ++ moduleName ++ "." ++ name ++ "'>"

/-- A descriptor with its parts. -/
def Descriptor.shown (d : Descriptor) : String :=
  "PluginType(plugin_class=" ++ shownClass d.moduleName d.className ++ ", name=" ++ quoted d.name ++
  ", category=" ++ shownOption d.category ++ ", element_name=" ++ quoted d.elementName ++
  ", defer_children=" ++ shownBool d.deferChildren ++
    ", aliases=" ++ shownTuple (d.aliases.map quoted) ++ ")"

namespace Value

mutual

/-- The form of a value inside another one. -/
def shown : Value → String
  | .null => "None"
  | .bool b => shownBool b
  | .int i => toString i
  | .float x => x.text
  | .str s => quoted s
  | .bytes bs => shownBytes bs
  | .moment t => t.shown
  | .list xs => enclosed '[' (shownAll xs) ']'
  | .tuple xs => shownTuple (shownAll xs)
  | .set xs => if xs.isEmpty then "set()" else enclosed '\x7b' (inSetOrder xs (shownAll xs)) '\x7d'
  | .dict es => enclosed '\x7b' (shownEntries es) '\x7d'
  | .again kind => kind.ellipsis
  | .array xs => ArrayFormat.standard.shown xs
  | .path p => "PosixPath(" ++ quoted p ++ ")"
  | .member e n i => "<" ++ e ++ "." ++ n ++ ": " ++ toString i ++ ">"
  | .object c _ => "<" ++ c ++ ">"
  | .element e => shownElement e
  | .configuration name => "<Configuration " ++ shown name ++ ">"
  | .pluginClass m n => shownClass m n
  | .enumeration n => "<enum '" ++ n ++ "'>"

/-- The forms of several values. -/
def shownAll : List Value → List String
  | [] => []
  | x :: xs => shown x :: shownAll xs

/-- The forms of the entries of a dictionary. -/
def shownEntries : List (Value × Value) → List String
  | [] => []
  | (k, v) :: es => (shown k ++ ": " ++ shown v) :: shownEntries es

/-- The forms of attributes. -/
def shownAttributes : List (String × Value) → List String
  | [] => []
  | (k, v) :: as => (quoted k ++ ": " ++ shown v) :: shownAttributes as

/-- An element with its parts. -/
def shownElement : Element → String
  | ⟨name, attributes, text, slot, children⟩ =>
    "Node(name=" ++ quoted name ++ ", attributes=" ++
      enclosed '\x7b' (shownAttributes attributes) '\x7d' ++
    ", children=" ++ enclosed '[' (shownElements children) ']' ++ ", value=" ++ shownOption text ++
    ", plugin_type=" ++ (match slot with | some d => d.shown | none => "None") ++ ")"

/-- Several elements with their parts. -/
def shownElements : List Element → List String
  | [] => []
  | e :: es => shownElement e :: shownElements es

end

/-- The text that stands for a value. -/
def text : Value → String
  | .str s => s
  | .path p => p
  | .moment t => t.text
  | .member e n _ => e ++ "." ++ n
  | .array xs => ArrayFormat.standard.text xs
  | v => v.shown

/-- The most decimal digits of an integer that can be written. -/
def longestInteger : Nat := 4300

/-- What is wrong with an integer that has too many digits to be written. -/
def longIntegerMessage : String :=
  "Exceeds the limit (" ++ toString longestInteger ++
    " digits) for integer string conversion; use sys.set_int_max_str_digits() to increase the limit"

mutual

/-- Whether a value holds an integer that is too long to be written. -/
def isTooLong : Value → Bool
  | .int i => Nat.pow 10 longestInteger ≤ i.natAbs
  | .list xs | .tuple xs | .set xs => anyTooLong xs
  | .dict es => anyEntryTooLong es
  | _ => false

/-- Whether one of several values holds an integer that is too long to be written. -/
def anyTooLong : List Value → Bool
  | [] => false
  | x :: xs => isTooLong x || anyTooLong xs

/-- Whether an entry of a dictionary holds an integer that is too long to be written. -/
def anyEntryTooLong : List (Value × Value) → Bool
  | [] => false
  | (k, v) :: es => isTooLong k || isTooLong v || anyEntryTooLong es

end

end Value
end ConfigAssembly
