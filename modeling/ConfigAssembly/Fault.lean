import ConfigAssembly.Text.Quoted

/-!
# Faults

What goes wrong in code that the library calls but does not know: constructors, converters and
visitors supplied from outside. A fault has a kind and a message. Supplied code may also fail in a
way that cannot be put into words: whoever asks such a fault for its text runs into another one.
-/

namespace ConfigAssembly

/-- Kinds of faults. -/
inductive FaultKind where
  | value
  | runtime
  | key
  | type
  /-- Something was asked for that an object does not have. -/
  | attribute
  | notImplemented
  /-- A text cannot be written in an encoding. -/
  | encoding
  deriving DecidableEq, Repr

/-- What went wrong in supplied code. -/
inductive Fault where
  /-- A fault that says what is wrong. -/
  | said (kind : FaultKind) (message : String)
  /-- A fault without a text: forming its text fails. -/
  | mute (failure : Fault)
  deriving DecidableEq, Repr

namespace Fault

/-- The text of a fault, in which the message of a missing key is shown quoted, or what forming it
fails with. -/
def text : Fault → Except Fault String
  | .said .key message => .ok (Text.quoted message)
  | .said _ message => .ok message
  | .mute failure => .error failure

/-- What is shown of a fault that nobody handled. -/
def shown (f : Fault) : String :=
  match f.text with
  | .ok s => s
  | .error _ => "<exception str() failed>"

/-- Something was asked for that an object of the named kind does not have. -/
def missing (owner name : String) : Fault :=
  .said .attribute ("'" ++ owner ++ "' object has no attribute '" ++ name ++ "'")

/-- The text of a fault cannot be formed just if the fault has none. -/
theorem text_eq_error_iff {f failure : Fault} :
    f.text = .error failure ↔ f = .mute failure := by
  constructor
  · intro h
    match f with
    | .said kind message => cases kind <;> cases h
    | .mute _ =>
      cases h
      rfl
  · rintro rfl
    rfl

end Fault
end ConfigAssembly
