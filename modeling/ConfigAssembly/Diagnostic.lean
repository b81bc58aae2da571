import ConfigAssembly.Log

/-!
# Diagnostics

What is found to be wrong, or worth knowing, while instances are built. Every diagnostic is also
logged, with the same message.
-/

namespace ConfigAssembly

/-- What a diagnostic is about. -/
inductive DiagnosticKind where
  /-- A plugin does not offer a way of construction. -/
  | resolutionMiss
  /-- A way of construction failed. -/
  | invocationFailure
  /-- Attributes were left over. -/
  | unusedAttribute
  /-- A child was left over. -/
  | unusedChild
  /-- An element belongs to no plugin. -/
  | missingPlugin
  deriving DecidableEq, Repr

namespace DiagnosticKind

/-- The word for a kind of diagnostic. -/
def label : DiagnosticKind → String
  | .resolutionMiss => "resolution_miss"
  | .invocationFailure => "invocation_failure"
  | .unusedAttribute => "unused_attribute"
  | .unusedChild => "unused_child"
  | .missingPlugin => "missing_plugin"

/-- Only the absence of a way of construction is no error: another way may be there. -/
def severity : DiagnosticKind → Severity
  | .resolutionMiss => .debug
  | _ => .error

end DiagnosticKind

/-- A diagnostic. -/
structure Diagnostic where
  kind : DiagnosticKind
  message : String
  /-- Name of the element it is about. -/
  element : String
  deriving DecidableEq, Repr

namespace Diagnostic

/-- How much a diagnostic matters. -/
def severity (d : Diagnostic) : Severity := d.kind.severity

/-- Whether a diagnostic reports an error. -/
def isError (d : Diagnostic) : Bool := d.severity == .error

/-- The log record of a diagnostic. -/
def record (d : Diagnostic) : Record := ⟨d.severity, d.message, false⟩

end Diagnostic
end ConfigAssembly
