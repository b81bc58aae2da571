import ConfigAssembly.Binding

/-!
# Building one instance

An instance is built of a node by the builder of its plugin type, or else by its factory. A failed
attempt is reported and the next one begins afresh. What was left over of the element is reported
for the attempt that produced an instance only.

The report of a failure quotes the text of the fault behind it. So a fault that has no text is not
reported: what forming its text fails with goes to the caller, and nothing comes of the build.
-/

namespace ConfigAssembly

/-- The way in which an instance came about. -/
inductive BuildPath where
  | builder
  | factory
  deriving DecidableEq, Repr

/-- The word for a way of construction. -/
def BuildPath.label : BuildPath → String
  | .builder => "builder"
  | .factory => "factory"

/-- What comes of a build. -/
structure BuildResult where
  /-- Whether an instance was built. -/
  ok : Bool
  /-- The instance, or nothing. -/
  built : Value
  path : Option BuildPath
  diagnostics : List Diagnostic

namespace BuildResult

/-- The result of a way of construction that was gone to its end. -/
def through (built : Value) (path : BuildPath) (diagnostics : List Diagnostic) : BuildResult :=
  ⟨!built.isNull, built, some path, diagnostics⟩

/-- The result if no way of construction was gone to its end. -/
def failure (diagnostics : List Diagnostic) : BuildResult := ⟨false, .null, none, diagnostics⟩

/-- The diagnostics that report errors. -/
def errors (r : BuildResult) : List Diagnostic := r.diagnostics.filter (·.isError)

end BuildResult

/-- What a build is about. -/
structure Job where
  type : PluginType
  node : Node
  /-- The configuration as an input receives it. -/
  configuration : Value
  sources : Sources
  visitors : VisitorRegistry
  event : Option Event
  /-- Names of children that belong to the configuration itself. -/
  reserved : List String

/-- What comes of an attempt at construction. -/
inductive Attempt where
  /-- The plugin does not offer this way. -/
  | absent
  /-- The plugin gave no builder. -/
  | declined
  /-- Something failed; the message says what, or what saying it fails with. -/
  | failed (message : Except Fault String) (log : Log)
  /-- An instance, or nothing, was delivered, and these data were left over. -/
  | done (built : Value) (leftovers : List Diagnostic) (log : Log)

namespace Job

/-- What is taken when an attempt begins. -/
def taken (j : Job) : Taken := .reserving j.node (j.reserved.map Text.lower)

/-- What the inputs of the node are bound with. -/
def binder (j : Job) : Binder := ⟨j.visitors, j.configuration, j.sources, j.node, j.event⟩

/-- The data left over when the inputs are bound. -/
def leftovers (j : Job) (c : Taken) : List Diagnostic := c.leftovers j.node j.type.deferChildren

/-- Opens a builder, sets its fields and lets it build. -/
def runBuilder (j : Job) (b : BuilderClass) : Attempt :=
  match j.binder.inject b.inputs b.initial j.taken with
  | ⟨.error e, _, log⟩ => .failed e.message log
  | ⟨.ok fields, c, log⟩ =>
    match b.finish fields with
    | .error f => .failed f.text log
    | .ok x => .done x (j.leftovers c) log

/-- The attempt by a builder. -/
def attemptBuilder (j : Job) : Attempt :=
  match j.type.strategy.builderFactory with
  | none => .absent
  | some f =>
    match f.start with
    | .error f => .failed f.text []
    | .ok none => .declined
    | .ok (some b) => j.runBuilder b

/-- The attempt by a factory. -/
def attemptFactory (j : Job) : Attempt :=
  match j.type.strategy.factory with
  | none => .absent
  | some f =>
    match j.binder.arguments f.inputs j.taken with
    | ⟨.error e, _, log⟩ => .failed e.message log
    | ⟨.ok xs, c, log⟩ =>
      match f.create xs with
      | .error f => .failed f.text log
      | .ok x => .done x (j.leftovers c) log

/-- The diagnostic about a way of construction that the plugin does not offer. -/
def miss (j : Job) (kind : EntryKind) : Diagnostic :=
  ⟨.resolutionMiss,
    "No compatible method decorated with @" ++ kind.label ++ " found in class " ++
      j.type.pluginClass.name ++ ".", j.node.name⟩

/-- The diagnostic about a way of construction that failed. -/
def failure (j : Job) (kind : EntryKind) (message : String) : Diagnostic :=
  match kind with
  | .builderFactory =>
    ⟨.invocationFailure,
      "Unable to inject fields into builder class for plugin type " ++ j.type.pluginClass.name ++
        ", element " ++ j.node.name ++ ": " ++ message, j.node.name⟩
  | .factory =>
    ⟨.invocationFailure,
      "Unable to invoke factory method in class " ++ j.type.pluginClass.name ++ " for element " ++
        j.node.name ++ ": " ++ message, j.node.name⟩

/-- The diagnostics of an attempt. -/
def diagnostics (j : Job) (kind : EntryKind) : Attempt → List Diagnostic
  | .absent => [j.miss kind]
  | .declined => []
  | .failed (.ok message) _ => [j.failure kind message]
  | .failed (.error _) _ => []
  | .done _ leftovers _ => leftovers

/-- What an attempt reports. -/
def records (j : Job) (kind : EntryKind) : Attempt → Log
  | .absent => [(j.miss kind).record]
  | .declined => [.debug ("Builder factory of " ++ j.type.pluginClass.name ++ " returned None.")]
  | .failed (.ok message) log =>
    log ++ [⟨.debug, "Exception raised while building " ++ j.node.name, true⟩,
      (j.failure kind message).record]
  | .failed (.error _) log => log
  | .done _ leftovers log => log ++ leftovers.map (·.record)

/-- The instance that an attempt delivered, if it went through. -/
def delivered? : Attempt → Option Value
  | .done x _ _ => some x
  | _ => none

/-- What goes to the caller, as the failure of an attempt cannot be put into words. -/
def raised? : Attempt → Option Fault
  | .failed (.error f) _ => some f
  | _ => none

/-- Builds an instance, by the builder or else by the factory. A failure that cannot be put into
words ends the build, and what putting it into words fails with is handed on. -/
def run (j : Job) : Except Fault BuildResult × Log :=
  let first := j.attemptBuilder
  let diagnostics := j.diagnostics .builderFactory first
  let log := j.records .builderFactory first
  match raised? first, delivered? first with
  | some f, _ => (.error f, log)
  | none, some x => (.ok (.through x .builder diagnostics), log)
  | none, none =>
    let second := j.attemptFactory
    let diagnostics := diagnostics ++ j.diagnostics .factory second
    let log := log ++ j.records .factory second
    match raised? second, delivered? second with
    | some f, _ => (.error f, log)
    | none, some x => (.ok (.through x .factory diagnostics), log)
    | none, none => (.ok (.failure diagnostics), log)

end Job

/-- What is missing for a build. -/
inductive ContractError where
  | noType
  | noConfiguration
  | noNode
  deriving DecidableEq, Repr

/-- What is wrong, in words. -/
def ContractError.message : ContractError → String
  | .noType => "No plugin type was set."
  | .noConfiguration => "No configuration object was set."
  | .noNode => "No node object was set."

/-- What a configuration provides for a build. -/
structure Services where
  /-- The configuration as an input receives it. -/
  configuration : Value
  sources : Sources
  visitors : VisitorRegistry

/-- An order for a build, whose parts may still be missing. -/
structure Order where
  type : Option PluginType
  services : Option Services
  node : Option Node
  /-- Visitors to use in place of those of the configuration. -/
  visitors : Option VisitorRegistry
  event : Option Event
  reserved : List String

/-- The job that an order is for, once nothing is missing. -/
def Order.job (o : Order) : Except ContractError Job :=
  match o.type, o.services, o.node with
  | none, _, _ => .error .noType
  | some _, none, _ => .error .noConfiguration
  | some _, some _, none => .error .noNode
  | some t, some s, some n =>
    .ok ⟨t, n, s.configuration, s.sources, o.visitors.getD s.visitors, o.event, o.reserved⟩

end ConfigAssembly
