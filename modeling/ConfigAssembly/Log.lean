/-!
# Log records

What the library reports while it works. Records are collected in the order in which they arise; a
threshold decides later which of them are shown.
-/

namespace ConfigAssembly

/-- How much a record matters. -/
inductive Severity where
  | debug
  | info
  | warning
  | error
  | critical
  deriving DecidableEq, Repr

namespace Severity

/-- The rank of a severity. -/
def rank : Severity → Nat
  | .debug => 10
  | .info => 20
  | .warning => 30
  | .error => 40
  | .critical => 50

/-- The word for a severity. -/
def label : Severity → String
  | .debug => "debug"
  | .info => "info"
  | .warning => "warning"
  | .error => "error"
  | .critical => "critical"

/-- The severity that a word names. -/
def ofLabel? (s : String) : Option Severity :=
  [debug, info, warning, error, critical].find? (·.label == s)

end Severity

/-- A log record. -/
structure Record where
  severity : Severity
  message : String
  /-- Whether the record shows where a failure happened. -/
  traced : Bool
  deriving DecidableEq, Repr

/-- What is reported while the library works. -/
abbrev Log := List Record

/-- The records at a severity or above. -/
def Log.atLeast (log : Log) (s : Severity) : Log := log.filter fun r => s.rank ≤ r.severity.rank

/-- A record for those who look for errors in a configuration. -/
def Record.debug (message : String) : Record := ⟨.debug, message, false⟩

/-- A record of progress. -/
def Record.info (message : String) : Record := ⟨.info, message, false⟩

/-- A record of an error. -/
def Record.error (message : String) : Record := ⟨.error, message, false⟩

end ConfigAssembly
