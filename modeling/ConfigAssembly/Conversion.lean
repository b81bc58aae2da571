import ConfigAssembly.Fault
import ConfigAssembly.TypeExpr
import ConfigAssembly.Value
import ConfigAssembly.Number.Numeral
import ConfigAssembly.Text.Case
import ConfigAssembly.Text.Quoted

/-!
# Conversion

Conversion of texts to typed values. `Converters` maps types to converters; on top of it
`Converters.convert` treats optional types, lists and tuples of items of one type, and enumerations.
A type without a converter leaves the text as it is.
-/

namespace ConfigAssembly

open ConfigAssembly.Text

/-- Why a text is refused for a type. -/
inductive Reason where
  /-- The text is none of the spellings of a truth value. -/
  | notBoolean
  /-- The text is the name of no member of an enumeration. -/
  | notMember (names : List String)
  /-- The text is no number. -/
  | notNumber (text : String)
  /-- The text is no integer. -/
  | notInteger (text : String)
  /-- The text has more digits than an integer may have. -/
  | tooManyDigits (digits : Nat)
  /-- A supplied converter gave this reason. -/
  | other (message : String)
  deriving DecidableEq, Repr

/-- The spellings of truth. -/
def trueTexts : List String := ["true", "yes", "on", "1"]

/-- The spellings of falsehood. -/
def falseTexts : List String := ["false", "no", "off", "0"]

/-- The most characters of a quoted text that a message about an integer shows. -/
def longestShown : Nat := 200

/-- A reason in words. -/
def Reason.message : Reason → String
  | .notBoolean =>
    "must be one of (" ++ ", ".intercalate ((trueTexts ++ falseTexts).map quoted) ++ ")"
  | .notMember names => "must be one of " ++ quotedList names
  | .notNumber text => "could not convert string to float: " ++ quoted text
  | .notInteger text =>
    "invalid literal for int() with base 0: " ++
      String.ofList ((quotedChars text.toList).take longestShown)
  | .tooManyDigits n =>
    "Exceeds the limit (4300 digits) for integer string conversion: value has " ++ toString n ++
    " digits; use sys.set_int_max_str_digits() to increase the limit"
  | .other message => message

/-- A text, or a part of it, cannot be converted to a type. -/
structure ConversionError where
  value : String
  target : TypeExpr
  reason : Reason

/-- What is wrong, in words. -/
def ConversionError.message (e : ConversionError) : String :=
  let reason := e.reason.message
  "Cannot convert " ++ quoted e.value ++ " to " ++ e.target.label ++
    (if reason.isEmpty then "" else ": " ++ reason)

/-- How a converter fails: it refuses the text, or it breaks down. -/
inductive Refusal where
  | refused (reason : Reason)
  | brokeDown (fault : Fault)

/-- A function that makes a value of a text. -/
abbrev Converter := String → Except Refusal Value

/-- How a conversion fails. -/
inductive ConversionFailure where
  | conversion (e : ConversionError)
  | fault (f : Fault)

/-- A failure in words, or what putting it into words fails with. -/
def ConversionFailure.message : ConversionFailure → Except Fault String
  | .conversion e => .ok e.message
  | .fault f => f.text

namespace Converter

/-- Truth values by their spellings, in any case and with blanks around. -/
def boolean : Converter := fun s =>
  let word := lower (trim s)
  if trueTexts.contains word then .ok (.bool true)
  else if falseTexts.contains word then .ok (.bool false)
  else .error (.refused .notBoolean)

/-- Why an integer numeral was refused. -/
def integerReason (s : String) : Numeral.IntegerFault → Reason
  | .malformed => .notInteger s
  | .tooLong n => .tooManyDigits n

/-- Integers: an integer numeral, or a numeral of a floating-point number that is integral. -/
def integer : Converter := fun s =>
  match Numeral.readInteger 0 s with
  | .ok i => .ok (.int i)
  | .error fault =>
    match Numeral.readFloat? s with
    | none => .error (.refused (.notNumber s))
    | some x =>
      match x.toInt? with
      | some i => .ok (.int i)
      | none => .error (.refused (integerReason s fault))

/-- Floating-point numbers. -/
def float : Converter := fun s =>
  match Numeral.readFloat? s with
  | some x => .ok (.float x)
  | none => .error (.refused (.notNumber s))

/-- Reads each item as a number, up to the first that is none. -/
def readAll : List String → Except Refusal (List Binary64)
  | [] => .ok []
  | s :: ss =>
    match Numeral.readFloat? s with
    | none => .error (.refused (.notNumber s))
    | some x => (readAll ss).map (x :: ·)

/-- Arrays of numbers, separated by commas and white space. -/
def array : Converter := fun s => (readAll (listItems s)).map .array

/-- A path without empty steps and steps to where one is; two slashes at the start, but not more,
are kept. -/
def normalisedPath (s : String) : String :=
  let cs := s.toList
  let root := match cs with
    | '/' :: '/' :: '/' :: _ => "/"
    | '/' :: '/' :: _ => "//"
    | '/' :: _ => "/"
    | _ => ""
  let steps := ((pieces (· == '/') cs).map String.ofList).filter fun p => p != "" && p != "."
  let whole := root ++ "/".intercalate steps
  if whole.isEmpty then "." else whole

/-- Paths of files. -/
def path : Converter := fun s => .ok (.path (normalisedPath s))

/-- A text as it is. -/
def text : Converter := fun s => .ok (.str s)

end Converter

/-- The converters of types. -/
abbrev Converters := Assoc TypeExpr Converter

namespace Converters

/-- Converters of texts, integers, floating-point numbers, truth values, paths and arrays. -/
def standard : Converters := [
  (.basic .str, Converter.text), (.basic .int, Converter.integer), (.basic .float, Converter.float),
  (.basic .bool, Converter.boolean), (.basic .path, Converter.path),
  (.basic .array, Converter.array)]

/-- Whether a type has a converter of its own. -/
def supports (cs : Converters) (t : TypeExpr) : Bool := cs.has t

/-- Applies a conversion to each item, up to the first failure. -/
def each (f : String → Except ConversionFailure Value) :
    List String → Except ConversionFailure (List Value)
  | [] => .ok []
  | s :: ss =>
    match f s with
    | .error e => .error e
    | .ok v => (each f ss).map (v :: ·)

/-- The member of an enumeration by its name, in any case and with blanks around. -/
def convertMember (e : EnumType) (s : String) : Except ConversionFailure Value :=
  match e.canonical.find? fun m => lower m.1 == lower (trim s) with
  | some (name, number) => .ok (.member e.name name number)
  | none => .error (.conversion ⟨s, .enum e, .notMember (e.canonical.map (·.1))⟩)

/-- Applies the converter of a type, if it has one. -/
def convertPlain (cs : Converters) (t : TypeExpr) (s : String) : Except ConversionFailure Value :=
  match cs.get? t with
  | none => .ok (.str s)
  | some f =>
    match f s with
    | .ok v => .ok v
    | .error (.refused reason) => .error (.conversion ⟨s, t, reason⟩)
    | .error (.brokeDown fault) => .error (.fault fault)

/-- Converts a text to a type. -/
def convert (cs : Converters) : TypeExpr → String → Except ConversionFailure Value
  | .basic b, s => match b with
    | .any | .str => .ok (.str s)
    | .list => .ok (.list ((commaItems s).map .str))
    | .tuple | .emptyTuple => .ok (.tuple ((commaItems s).map .str))
    | b => convertPlain cs (.basic b) s
  | .optional t _, s => convert cs t s
  | .union _, s => .ok (.str s)
  | .listOf t, s => (each (convert cs t) (commaItems s)).map .list
  | .tupleAll t, s => (each (convert cs t) (commaItems s)).map .tuple
  | .tupleOf t _, s => (each (convert cs t) (commaItems s)).map .tuple
  | .enum e, s => convertMember e s
  | .dictOf k v, s => convertPlain cs (.dictOf k v) s
  | .instanceOf c, s => convertPlain cs (.instanceOf c) s

/-- Converts a value if it is a text; any other value is as it should be. -/
def convertValue (cs : Converters) (t : TypeExpr) : Value → Except ConversionFailure Value
  | .str s => cs.convert t s
  | v => .ok v

end Converters

/-! ## Converters for use beside the standard ones -/

namespace Converter

/-- The text in upper case. -/
def upperCase : Converter := fun s => .ok (.str (upper s))

/-- The number of characters. -/
def length : Converter := fun s => .ok (.int (codes s.toList).length)

/-- Fails with a message that ends in the text. A fault of the value or its type counts as a
refusal. -/
def failing (kind : FaultKind) : Converter := fun s =>
  let message := "bad " ++ s
  match kind with
  | .value | .type => .error (.refused (.other message))
  | kind => .error (.brokeDown (.said kind message))

end Converter
end ConfigAssembly
