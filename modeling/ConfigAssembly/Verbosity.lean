import ConfigAssembly.Text.Case
import ConfigAssembly.Value.Text

/-!
# Verbosity

The threshold of a log, given by a name in any case or by a number.
-/

namespace ConfigAssembly

/-- The thresholds that have a name. -/
def verbosityNames : List (String × Int) := [
  ("CRITICAL", 50), ("FATAL", 50), ("ERROR", 40), ("WARN", 30), ("WARNING", 30),
  ("INFO", 20), ("DEBUG", 10), ("NOTSET", 0)]

/-- Why a value is no threshold. -/
inductive VerbosityError where
  /-- The name, in upper case, stands for no threshold. -/
  | unknownName (name : String)
  /-- The value is neither a name nor an integer. -/
  | noLevel (v : Value)

/-- What is wrong, in words. -/
def VerbosityError.message : VerbosityError → String
  | .unknownName name => "Unknown level: " ++ Text.quoted name
  | .noLevel v => "Level not an integer or a valid string: " ++ v.shown

/-- The threshold that a name stands for. -/
def verbosityOfName (s : String) : Except VerbosityError Int :=
  let name := Text.upper s
  match verbosityNames.lookup name with
  | some n => .ok n
  | none => .error (.unknownName name)

/-- The threshold that a value stands for: a text is a name, and an integer is its own threshold. -/
def verbosityOf : Value → Except VerbosityError Int
  | .str s => verbosityOfName s
  | .int n => .ok n
  | .bool b => .ok (if b then 1 else 0)
  | v => .error (.noLevel v)

end ConfigAssembly
