import ConfigAssembly.Visitor.Registry

/-!
# Binding

The inputs of a way of construction are bound one after the other. Each marker of an input goes to
the visitor for its kind; markers that no visitor is for are passed over, since they may mean
something to somebody else. `Binder.inject` binds the fields of a builder, `Binder.arguments` the
parameters of a factory.
-/

namespace ConfigAssembly

/-- What inputs are bound with. -/
structure Binder where
  visitors : VisitorRegistry
  /-- The configuration as an input receives it. -/
  configuration : Value
  sources : Sources
  node : Node
  event : Option Event

namespace Binder

/-- The circumstances in which a marker of an input is visited. -/
def occasion (b : Binder) (i : Input) (m : Marker) : Visit :=
  ⟨m, i.aliases, i.type, b.node, b.configuration, some b.sources, b.event, .standard⟩

/-- Visits markers one after the other; of several values the last counts, and without any there is
`last`. -/
def resolveFrom (b : Binder) (i : Input) :
    List Marker → Option Value → Taken → Outcome (Option Value)
  | [], last, c => ⟨.ok last, c, []⟩
  | m :: ms, last, c =>
    match b.visitors.find? m.kind with
    | none => b.resolveFrom i ms last c
    | some visitor =>
      match visitor.visit (b.occasion i m) c with
      | ⟨.error e, c, log⟩ => ⟨.error e, c, log⟩
      | ⟨.ok x, c, log⟩ => (b.resolveFrom i ms (some x) c).after log

/-- The value of an input, or nothing if no visitor is for it. -/
def resolve (b : Binder) (i : Input) (c : Taken) : Outcome (Option Value) :=
  b.resolveFrom i i.markers none c

/-- Sets the fields of a builder. A field that no visitor is for stays as it is. -/
def inject (b : Binder) : List Input → Fields → Taken → Outcome Fields
  | [], fields, c => ⟨.ok fields, c, []⟩
  | i :: is, fields, c =>
    match b.resolve i c with
    | ⟨.error e, c, log⟩ => ⟨.error e, c, log⟩
    | ⟨.ok none, c, log⟩ => (b.inject is fields c).after log
    | ⟨.ok (some x), c, log⟩ => (b.inject is (fields.insert i.name x) c).after log

/-- The values of parameters in their order; one that no visitor is for has none. -/
def values (b : Binder) : List Input → Taken → Outcome (List Value)
  | [], c => ⟨.ok [], c, []⟩
  | i :: is, c =>
    match b.resolve i c with
    | ⟨.error e, c, log⟩ => ⟨.error e, c, log⟩
    | ⟨.ok x, c, log⟩ =>
      match b.values is c with
      | ⟨.error e, c, log'⟩ => ⟨.error e, c, log ++ log'⟩
      | ⟨.ok xs, c, log'⟩ => ⟨.ok (x.getD .null :: xs), c, log ++ log'⟩

/-- The arguments of a factory, with a report of their number. -/
def arguments (b : Binder) (is : List Input) (c : Taken) : Outcome (List Value) :=
  match b.values is c with
  | ⟨.error e, c, log⟩ => ⟨.error e, c, log⟩
  | ⟨.ok xs, c, log⟩ =>
    ⟨.ok xs, c,
      log ++ [.debug
        ("Arguments for " ++ b.node.name ++ ": " ++ toString is.length ++ " parameter(s)")]⟩

end Binder
end ConfigAssembly
