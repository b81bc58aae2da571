import ConfigAssembly.Text.Quoted
import ConfigAssembly.Timestamp

/-!
# Faults of documents

Why a document cannot be read. Most faults lie in the form of the document; the others lie in a
scalar whose type its text does not fit.
-/

namespace ConfigAssembly.Yaml

/-- Why a document cannot be read. -/
inductive Fault where
  /-- The text is no document, or something in it has no meaning. -/
  | malformed
  /-- The code of an escaped character is beyond the last character. -/
  | noCharacter
  /-- The code of an escaped character is no code at all. -/
  | hugeCharacter
  | timestamp (f : TimestampFault)
  /-- A scalar declared to be a timestamp is none. -/
  | notTimestamp
  /-- The digits of an integer do not fit its base. -/
  | notInteger (base : Nat) (text : String)
  | tooManyDigits (digits : Nat)
  | notNumber (text : String)
  /-- A number without a digit. -/
  | noDigit
  /-- A scalar declared to be a truth value is none. -/
  | notBoolean (text : String)
  /-- A number with parts to the base 60 has more parts than a floating-point number can weigh. -/
  | hugeUnit
  /-- Nodes lie too deep in one another. -/
  | tooDeep
  deriving DecidableEq, Repr

/-- What is wrong, in words; faults of form are described by what found them. -/
def Fault.message : Fault → String
  | .malformed => ""
  | .noCharacter => "chr() arg not in range(0x110000)"
  | .hugeCharacter => "Python int too large to convert to C int"
  | .timestamp f => f.message
  | .notTimestamp => "'NoneType' object has no attribute 'groupdict'"
  | .notInteger base text =>
    "invalid literal for int() with base " ++ toString base ++ ": " ++
      String.ofList ((Text.quotedChars text.toList).take 200)
  | .tooManyDigits n =>
    "Exceeds the limit (4300 digits) for integer string conversion: value has " ++ toString n ++
    " digits; use sys.set_int_max_str_digits() to increase the limit"
  | .notNumber text => "could not convert string to float: " ++ Text.quoted text
  | .noDigit => "string index out of range"
  | .notBoolean text => Text.quoted text
  | .hugeUnit => "int too large to convert to float"
  | .tooDeep => "maximum recursion depth exceeded"

end ConfigAssembly.Yaml
