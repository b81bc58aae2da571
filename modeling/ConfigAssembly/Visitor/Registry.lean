import ConfigAssembly.Visitor

/-!
# Registry of visitors

Visitors by the kind of markers that they are for. The registry is filled before anything is built;
once frozen it stays as it is.
-/

namespace ConfigAssembly

/-- Visitors by kind. -/
structure VisitorRegistry where
  visitors : Assoc String Visitor
  frozen : Bool

/-- Why a visitor cannot be registered. -/
inductive VisitorError where
  /-- The registry is closed. -/
  | frozen
  /-- Neither the visitor nor the caller gives a kind. -/
  | noKind (label : String)
  deriving DecidableEq, Repr

/-- What is wrong, in words. -/
def VisitorError.message : VisitorError → String
  | .frozen => "Cannot register a visitor once the registry is frozen."
  | .noKind label => "Visitor " ++ label ++ " does not define a kind."

namespace VisitorRegistry

/-- A registry without visitors. -/
def empty : VisitorRegistry := ⟨[], false⟩

/-- Registers a visitor, under its own kind unless another is given. -/
def register (r : VisitorRegistry) (v : Visitor) (kind : Option String) :
    Except VisitorError VisitorRegistry :=
  if r.frozen then .error .frozen
  else
    let kind := (nonEmpty? kind).getD v.kind
    if kind.isEmpty then .error (.noKind v.label)
    else .ok { r with visitors := r.visitors.insert kind v }

/-- Closes the registry. -/
def freeze (r : VisitorRegistry) : VisitorRegistry := { r with frozen := true }

/-- The visitor for a kind. -/
def find? (r : VisitorRegistry) (kind : String) : Option Visitor := r.visitors.get? kind

/-- The kinds in the order in which they were first registered. -/
def kinds (r : VisitorRegistry) : List String := r.visitors.keys

/-- The built-in visitors, each under its own kind. -/
def standard : VisitorRegistry :=
  ⟨[Visitor.ofAttribute, .ofElement, .ofText, .ofNode, .ofConfiguration].map fun v => (v.kind, v),
    false⟩

end VisitorRegistry
end ConfigAssembly
