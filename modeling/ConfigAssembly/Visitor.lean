import ConfigAssembly.Taken
import ConfigAssembly.Conversion
import ConfigAssembly.Substitution

/-!
# Visitors

A visitor delivers the value of one input from an element. `Visit` holds the circumstances; a visit
may take parts of the element and report what it does, also when it fails. The visitors here belong
to the five built-in kinds of markers.
-/

namespace ConfigAssembly

/-- Why an input has no value. -/
inductive InputError where
  /-- A required attribute is missing. -/
  | missingAttribute (node name : String)
  /-- A required element is missing. -/
  | missingElement (node name : String)
  /-- A required text is missing. -/
  | missingText (node : String)
  | conversion (e : ConversionError)
  | fault (f : Fault)

/-- What is wrong, in words, or what putting it into words fails with. -/
def InputError.message : InputError → Except Fault String
  | .missingAttribute node name =>
    .ok (node ++ " is missing the required attribute " ++ methodQuote ++ name ++ methodQuote)
  | .missingElement node name =>
    .ok (node ++ " is missing the required element " ++ methodQuote ++ name ++ methodQuote)
  | .missingText node => .ok (node ++ " is missing a value")
  | .conversion e => .ok e.message
  | .fault f => f.text

/-- A failed conversion leaves an input without a value. -/
def InputError.ofConversion : ConversionFailure → InputError
  | .conversion e => .conversion e
  | .fault f => .fault f

/-- What comes of binding one or several inputs: a result or an error, and in either case what is
taken so far and what was reported. -/
structure Outcome (α : Type) where
  result : Except InputError α
  taken : Taken
  log : Log

/-- The outcome with records reported before it. -/
def Outcome.after {α : Type} (o : Outcome α) (log : Log) : Outcome α :=
  { o with log := log ++ o.log }

/-- The circumstances of a visit. -/
structure Visit where
  marker : Marker
  /-- Names that are tried before that of the marker. -/
  aliases : List String
  type : TypeExpr
  node : Node
  /-- The configuration as an input receives it. -/
  configuration : Value
  /-- Where tokens are looked up, if they are replaced at all. -/
  sources : Option Sources
  event : Option Event
  converters : Converters

namespace Visit

/-- A part of the marker that not every marker has. -/
def need {α : Type} (v : Visit) (name : String) (part : Option α) : Except InputError α :=
  match part with
  | some a => .ok a
  | none => .error (.fault (Fault.missing v.marker.label name))

/-- What is reported as wrong when the marker has no name to look for. -/
def nameless : InputError := .fault (Fault.missing "NoneType" "lower")

/-- Takes the attribute that the names find, the aliases first. -/
def takeAttribute (v : Visit) (c : Taken) : Except InputError (Option Value) × Taken :=
  match v.marker.name with
  | some name =>
    let (found, c) := c.takeAttribute v.node (v.aliases ++ [name])
    (.ok (found.map (·.2)), c)
  | none =>
    match c.takeAttribute v.node v.aliases with
    | (some a, c) => (.ok (some a.2), c)
    | (none, c) => (.error nameless, c)

/-- Takes the children that the names find, the aliases first. -/
def takeChildren (v : Visit) (c : Taken) (firstOnly : Bool) :
    Except InputError (List Node) × Taken :=
  match v.marker.name with
  | some name =>
    let (found, c) := c.takeChildren v.node (v.aliases ++ [name]) firstOnly
    (.ok (found.map (·.1)), c)
  | none =>
    match c.takeChildren v.node v.aliases firstOnly with
    | ([], c) => (if (c.freeChildren v.node).isEmpty then .ok [] else .error nameless, c)
    | (found, c) => (.ok (found.map (·.1)), c)

/-- A value with its tokens replaced, if they are replaced at all. -/
def substituted (v : Visit) (x : Value) : Except InputError Value :=
  match v.sources with
  | some s => (s.replaceIn v.event x).mapError .fault
  | none => .ok x

/-- The configured value, or the default of the marker, with its tokens replaced if the marker asks
for it. -/
def configured (v : Visit) (found : Option Value) : Except InputError Value := do
  let raw ← match found with
    | some x => pure x
    | none => v.need "default" v.marker.default?
  let substitute ← v.need "substitute" v.marker.substitute?
  if substitute then v.substituted raw else pure raw

/-- The value converted to the type of the input. -/
def converted (v : Visit) (x : Value) : Except InputError Value :=
  match v.converters.convertValue v.type x with
  | .ok y => .ok y
  | .error e => .error (.ofConversion e)

/-- Refuses the absence of a value if the marker requires one. -/
def demand (v : Visit) (x : Value) (e : InputError) : Except InputError Unit :=
  if x.isNull then do
    if ← v.need "required" v.marker.required? then .error e else .ok ()
  else .ok ()

/-- The trace of a value that was found for an input. -/
def trace (v : Visit) (shown : String) : Record :=
  .debug (v.node.name ++ "(" ++ v.marker.shownName ++ "=" ++ shown ++ ")")

end Visit

/-- A visitor. -/
structure Visitor where
  /-- The word for the visitor in messages. -/
  label : String
  /-- The kind of markers that it is for, which may be empty. -/
  kind : String
  visit : Visit → Taken → Outcome Value

namespace Visitor

/-- What a trace shows of a sensitive value. -/
def mask : String := "*****"

/-- Reads an attribute. -/
def ofAttribute : Visitor where
  label := "AttributeVisitor"
  kind := "attribute"
  visit v c :=
    match v.takeAttribute c with
    | (.error e, c) => ⟨.error e, c, []⟩
    | (.ok found, c) =>
      match v.configured found, v.need "sensitive" v.marker.sensitive? with
      | .error e, _ => ⟨.error e, c, []⟩
      | .ok _, .error e => ⟨.error e, c, []⟩
      | .ok x, .ok sensitive =>
        let shown := if sensitive && !x.isNull then mask else x.text
        let log := [v.trace ("\"" ++ shown ++ "\"")]
        match v.demand x (.missingAttribute v.node.name v.marker.shownName) with
        | .error e => ⟨.error e, c, log⟩
        | .ok () => ⟨v.converted x, c, log⟩

/-- Whether an input of a type takes all elements that match. -/
def takesAll : TypeExpr → Bool
  | .basic .list | .basic .tuple | .basic .emptyTuple | .listOf _ | .tupleAll _ | .tupleOf _ _ =>
    true
  | _ => false

/-- Whether several instances are delivered as a tuple. -/
def givesTuple : TypeExpr → Bool
  | .basic .tuple | .basic .emptyTuple | .tupleAll _ | .tupleOf _ _ => true
  | _ => false

/-- What an input of a type receives of instances. -/
def delivered (t : TypeExpr) (xs : List Value) : Value :=
  if takesAll t then (if givesTuple t then .tuple xs else .list xs)
  else match xs with
    | [] => .null
    | x :: _ => x

/-- Collects the instances built of elements below: all that match if the type is a list or a tuple,
else the first. -/
def ofElement : Visitor where
  label := "ElementVisitor"
  kind := "element"
  visit v c :=
    match v.takeChildren c (!takesAll v.type) with
    | (.error e, c) => ⟨.error e, c, []⟩
    | (.ok found, c) =>
      let required := if found.isEmpty then v.need "required" v.marker.required? else .ok false
      match required with
      | .error e => ⟨.error e, c, []⟩
      | .ok true => ⟨.error (.missingElement v.node.name v.marker.shownName), c, []⟩
      | .ok false =>
        let xs := found.map Node.built
        ⟨.ok (delivered v.type xs), c, [v.trace (Value.shown (.list xs))]⟩

/-- Reads the text of the element, or an attribute in its place. -/
def ofText : Visitor where
  label := "ValueVisitor"
  kind := "value"
  visit v c :=
    let (found, c) := match v.node.text with
      | some s => (Except.ok (some (Value.str s)), c)
      | none => v.takeAttribute c
    match found.bind v.configured with
    | .error e => ⟨.error e, c, []⟩
    | .ok x =>
      match v.demand x (.missingText v.node.name) with
      | .error e => ⟨.error e, c, []⟩
      | .ok () => ⟨v.converted x, c, []⟩

/-- Delivers the element itself. -/
def ofNode : Visitor where
  label := "NodeVisitor"
  kind := "node"
  visit v c := ⟨.ok (.element v.node.snapshot), c, []⟩

/-- Delivers the configuration. -/
def ofConfiguration : Visitor where
  label := "ConfigurationVisitor"
  kind := "configuration"
  visit v c := ⟨.ok v.configuration, c, []⟩

/-! ### Visitors for use beside the built-in ones -/

/-- Reads an attribute and delivers it in upper case, without replacing tokens and without
conversion. -/
def upperCase : Visitor where
  label := "UpperVisitor"
  kind := "upper"
  visit v c :=
    match v.takeAttribute c with
    | (.error e, c) => ⟨.error e, c, []⟩
    | (.ok none, c) => ⟨.ok .null, c, []⟩
    | (.ok (some (.str s)), c) => ⟨.ok (.str (Text.upper s)), c, []⟩
    | (.ok (some x), c) => ⟨.error (.fault (Fault.missing x.typeName "upper")), c, []⟩

/-- Delivers nothing. -/
def bare : Visitor where
  label := "PluginVisitor"
  kind := ""
  visit _ c := ⟨.error (.fault (.said .notImplemented "")), c, []⟩

end Visitor
end ConfigAssembly
