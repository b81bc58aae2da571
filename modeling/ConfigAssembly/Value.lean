import ConfigAssembly.Assoc
import ConfigAssembly.Tree
import ConfigAssembly.Timestamp
import ConfigAssembly.Number.Binary64

/-!
# Values

The values that configurations hold and deliver: plain data, what conversion makes of texts,
instances of plugin classes, and the configuration and its elements themselves, which an input may
ask for. Keys of a dictionary are compared by `Value.sameKey`, under which a number and the truth
value it stands for are one key.
-/

namespace ConfigAssembly

/-- What a plugin is known by: its class and the terms under which it was declared. -/
structure Descriptor where
  /-- Name of the class. -/
  className : String
  /-- Module that the class was defined in. -/
  moduleName : String
  /-- Name of the plugin. -/
  name : String
  category : Option String
  /-- Name of its elements in diagnostics. -/
  elementName : String
  /-- Whether the plugin looks after the elements below its own. -/
  deferChildren : Bool
  /-- Names that are still understood but deprecated. -/
  aliases : List String
  deriving DecidableEq, Repr, Inhabited

/-- A kind of collection. -/
inductive CollectionKind where
  | list
  | tuple
  | dict
  deriving DecidableEq, Repr

/-- A value. -/
inductive Value where
  | null
  | bool (b : Bool)
  | int (i : Int)
  | float (x : Binary64)
  | str (s : String)
  | bytes (bs : List UInt8)
  | moment (t : Timestamp)
  | list (xs : List Value)
  | tuple (xs : List Value)
  | set (xs : List Value)
  | dict (es : List (Value × Value))
  /-- A collection that this place is a part of. -/
  | again (kind : CollectionKind)
  /-- An array of numbers. -/
  | array (xs : List Binary64)
  /-- A path of a file, normalised. -/
  | path (p : String)
  /-- A member of an enumeration. -/
  | member (enumeration name : String) (number : Int)
  /-- An instance of a plugin class. -/
  | object (className : String) (fields : List (String × Value))
  /-- An element that an input asked for, with what is below it and the plugins that were found for
  them. -/
  | element (e : Tree Value (Option Descriptor))
  /-- The configuration that an input asked for, by its name. -/
  | configuration (name : Value)
  /-- A plugin class itself. -/
  | pluginClass (moduleName name : String)
  /-- An enumeration itself. -/
  | enumeration (name : String)
  deriving Inhabited

/-- An element of a configuration with what is below it and the plugins that were found for them. -/
abbrev Element := Tree Value (Option Descriptor)

namespace Value

/-- Whether a value is there. -/
def isNull : Value → Bool
  | .null => true
  | _ => false

/-- The word for the type of a value. -/
def typeName : Value → String
  | .null => "NoneType"
  | .bool _ => "bool"
  | .int _ => "int"
  | .float _ => "float"
  | .str _ => "str"
  | .bytes _ => "bytes"
  | .moment t => if t.clock.isSome then "datetime.datetime" else "datetime.date"
  | .list _ | .again .list => "list"
  | .tuple _ | .again .tuple => "tuple"
  | .set _ => "set"
  | .dict _ | .again .dict => "dict"
  | .array _ => "numpy.ndarray"
  | .path _ => "PosixPath"
  | .member e _ _ => e
  | .object c _ => c
  | .element _ => "Node"
  | .configuration _ => "Configuration"
  | .pluginClass _ _ => "type"
  | .enumeration _ => "EnumType"

mutual

/-- The part of a value that keeps it from being a key, if there is one: a collection that can
change. -/
def changeable? : Value → Option Value
  | .tuple xs => changeableAmong? xs
  | .list xs => some (.list xs)
  | .dict es => some (.dict es)
  | .set xs => some (.set xs)
  | .array xs => some (.array xs)
  | _ => none

/-- The first part of some values that keeps them from being keys. -/
def changeableAmong? : List Value → Option Value
  | [] => none
  | x :: xs => (changeable? x).or (changeableAmong? xs)

end

/-- The text of a value that is a text. -/
def str? : Value → Option String
  | .str s => some s
  | _ => none

/-- The number that a value counts as when it is a key. -/
def number? : Value → Option Binary64 ⊕ Int
  | .bool b => .inr (if b then 1 else 0)
  | .int i => .inr i
  | .float x => match x.toInt? with
    | some i => .inr i
    | none => .inl (some x)
  | _ => .inl none

/-- Whether two values count as the same number. -/
def sameNumber (a b : Value) : Bool :=
  match a.number?, b.number? with
  | .inr i, .inr j => i == j
  | .inl (some x), .inl (some y) => x.sameNumber y
  | _, _ => false

mutual

/-- Whether two values are the same key of a dictionary. -/
def sameKey : Value → Value → Bool
  | .str a, b => match b with
    | .str b => a == b
    | _ => false
  | .null, b => b.isNull
  | .bytes a, b => match b with
    | .bytes b => a == b
    | _ => false
  | .moment a, b => match b with
    | .moment b => a.same b
    | _ => false
  | .tuple xs, b => match b with
    | .tuple ys => sameKeys xs ys
    | _ => false
  | .bool a, b => sameNumber (.bool a) b
  | .int a, b => sameNumber (.int a) b
  | .float a, b => sameNumber (.float a) b
  | .member e n _, b => match b with
    | .member e' n' _ => e == e' && n == n'
    | _ => false
  | _, _ => false

/-- Whether two lists hold the same keys in the same order. -/
def sameKeys : List Value → List Value → Bool
  | [], ys => ys.isEmpty
  | x :: xs, ys => match ys with
    | [] => false
    | y :: ys => sameKey x y && sameKeys xs ys

end

instance : BEq Value := ⟨sameKey⟩

/-- The dictionary that entries written one after the other give. -/
def ofEntries (es : List (Value × Value)) : Value := .dict (Assoc.ofList es)

/-- Texts are the same values if they are the same texts. -/
@[simp] theorem str_beq_str (a b : String) : (Value.str a == Value.str b) = (a == b) := rfl

end Value
end ConfigAssembly
