import ConfigAssembly.Build
import ConfigAssembly.Plugin.Registry

/-!
# Configurations

A configuration is a tree of elements with what is needed to build it: `Configuration.setup` finds a
plugin type for every element, and `Configuration.build` builds the elements bottom-up, so that the
instances of the children are there when their parent is built. The root is a container and is only
built if a plugin type was found for it. A child of the root named `properties` declares properties
and is not built.

A fault that the build of an element hands on ends the build of the configuration: the elements that
were to come are left as they are.
-/

namespace ConfigAssembly

open ConfigAssembly.Text

/-- The name, in lower case, of the children of the root that declare properties. -/
def propertiesName : String := "properties"

/-- Whether a child of the root declares properties. -/
def isPropertiesBlock {α σ : Type} (t : Tree α σ) : Bool := lower t.name == propertiesName

/-- What the work on a configuration reports: log records, and warnings about deprecated names. -/
structure Report where
  log : Log
  warnings : List String

/-- One report after another. -/
def Report.append (a b : Report) : Report := ⟨a.log ++ b.log, a.warnings ++ b.warnings⟩

/-- A configuration. -/
structure Configuration where
  root : Node
  registry : Registry
  visitors : VisitorRegistry
  sources : Sources
  /-- Whether plugin types have been looked up. -/
  resolved : Bool
  results : List BuildResult
  diagnostics : List Diagnostic

/-! ## Properties -/

/-- The child of an element that a name finds first, in any case. -/
def Tree.child? {α σ : Type} (t : Tree α σ) (name : String) : Option (Tree α σ) :=
  t.children.find? fun c => sameName c.name name

/-- The name of a root: its `name` attribute, or the name of the element. -/
def Tree.title {σ : Type} (t : Tree Value σ) : Value := (t.attribute? "name").getD (.str t.name)

/-- The configured value of a property: the text of its element, or else its attribute `value`. -/
def propertyValue {σ : Type} (t : Tree Value σ) : Value :=
  match t.text with
  | some s => .str s
  | none => (t.attribute? "value").getD (.str "")

/-- The value of a property. Of a text the tokens are replaced; nothing else may hold an opening, as
a collection may have one as its part. -/
def declaredValue (s : Sources) (v : Value) : Except Fault Value :=
  let opening := Value.str (String.ofList Substitution.opening)
  let unlessAmong := fun (xs : List Value) =>
    if xs.any (· == opening) then Except.error (Fault.missing v.typeName "replace")
    else .ok v
  match v with
  | .null => .ok .null
  | .str text => (s.replaced none text).map .str
  | .list xs | .tuple xs => unlessAmong xs
  | .dict es => unlessAmong (es.map (·.1))
  | v => .error (.said .type ("argument of type '" ++ v.typeName ++ "' is not iterable"))

/-- Declares a property. -/
def declareProperty (s : Sources) (name v : Value) : Except Fault Sources := do
  let v ← declaredValue s v
  match name.changeable? with
  | some part => throw (.said .type ("unhashable type: '" ++ part.typeName ++ "'"))
  | none => pure { s with properties := s.properties.insert name v }

/-- Declares properties one after the other; each may refer to those before it. One without a name
is reported. -/
def declareProperties {σ : Type} (title : Value) :
    List (Tree Value σ) → Sources → Except Fault Sources × Log
  | [], s => (.ok s, [])
  | t :: ts, s =>
    match (t.attribute? "name").getD .null with
    | .null =>
      let (s, log) := declareProperties title ts s
      (s, .error ("Property without a name in " ++ title.text) :: log)
    | name =>
      match declareProperty s name (propertyValue t) with
      | .error f => (.error f, [])
      | .ok s => declareProperties title ts s

/-- The properties of a root, with `overrides` written over them. -/
def readProperties {σ : Type} (root : Tree Value σ) (environment : Assoc String String)
    (overrides : Assoc String Value) : Except Fault Sources × Log :=
  let (s, log) := declareProperties root.title
    ((root.child? propertiesName).elim [] (·.children)) ⟨[], .process environment⟩
  let overrides := overrides.map fun (k, v) => (Value.str k, v)
  (s.map fun s => { s with properties := s.properties.insertAll overrides }, log)

namespace Configuration

/-- A configuration of a root, with what its properties report. A property may keep it from being
made. -/
def make (root : Node) (registry : Registry) (visitors : VisitorRegistry)
    (environment : Assoc String String) (overrides : Assoc String Value) :
    Except Fault Configuration × Log :=
  let (sources, log) := readProperties root environment overrides
  (sources.map fun s => ⟨root, registry, visitors, s, false, [], []⟩, log)

/-- The name of a configuration. -/
def name (c : Configuration) : Value := c.root.title

/-- Whether every build produced an instance. -/
def ok (c : Configuration) : Bool := c.results.all (·.ok)

/-- The children of the root that are built. -/
def elements (c : Configuration) : List Node :=
  c.root.children.filter fun n => !isPropertiesBlock n

/-! ## Looking up plugin types -/

/-- The plugin type of an element's name looks after the elements below it. -/
def defers (r : Registry) (name : String) : Bool := (r.get? name).any (·.deferChildren)

mutual

/-- The node with the plugin types noted that its name and those below find; below a plugin that
looks after its children none is looked up. -/
def resolveNode (r : Registry) : Node → Node
  | ⟨name, attributes, text, slot, children⟩ =>
    ⟨name, attributes, text, { slot with type := r.get? name },
      if defers r name then children else resolveNodes r children⟩

/-- Several nodes with plugin types noted. -/
def resolveNodes (r : Registry) : List Node → List Node
  | [] => []
  | n :: ns => resolveNode r n :: resolveNodes r ns

end

mutual

/-- The number of elements of a tree. -/
def weight : Node → Nat
  | ⟨_, _, _, _, children⟩ => 1 + weights children

/-- The number of elements of several trees. -/
def weights : List Node → Nat
  | [] => 0
  | n :: ns => weight n + weights ns

end

/-- Weights of lists add up. -/
theorem weights_append (a b : List Node) : weights (a ++ b) = weights a + weights b := by
  induction a with
  | nil => simp [weights]
  | cons n ns ih => simp [weights, ih, Nat.add_assoc]

/-- What is below a node weighs less than the node. -/
theorem weights_children_lt (n : Node) : weights n.children < weight n := by
  cases n; simp [weight]

/-- The elements directly below a node whose plugin types are looked up. -/
def lookedUpBelow (r : Registry) (n : Node) : List Node :=
  if defers r n.name then [] else n.children

/-- The elements whose plugin types are looked up, given those that come first: level by level. -/
def lookedUp (r : Registry) : List Node → List Node
  | [] => []
  | n :: ns => n :: lookedUp r (ns ++ lookedUpBelow r n)
termination_by ns => weights ns
decreasing_by
  have h := weights_children_lt n
  rw [weights_append, weights]
  unfold lookedUpBelow
  split
  · simp only [weights]; omega
  · omega

/-- The diagnostic about an element that belongs to no plugin. -/
def missing (n : Node) : Diagnostic :=
  ⟨.missingPlugin, "Unable to locate plugin type for " ++ n.name, n.name⟩

/-- The diagnostics about those of some elements that belong to no plugin. -/
def missingAmong (r : Registry) (ns : List Node) : List Diagnostic :=
  (ns.filter fun n => (r.get? n.name).isNone).map missing

/-- The root with the plugin types noted that are found; the root keeps the one it has if none is
found for it. -/
def resolveRoot (r : Registry) (root : Node) : Node :=
  let root := match r.get? root.name with
    | some t => root.withType (some t)
    | none => root
  root.withChildren (root.children.map fun n => if isPropertiesBlock n then n else resolveNode r n)

/-- Looks up the plugin types of all elements. Elements that belong to none are reported. -/
def setup (c : Configuration) : Configuration × Report :=
  let visited := lookedUp c.registry c.elements
  let diagnostics := missingAmong c.registry visited
  ({ c with
      root := resolveRoot c.registry c.root, resolved := true,
      diagnostics := c.diagnostics ++ diagnostics },
    ⟨diagnostics.map (·.record),
      c.registry.notices c.root.name ++ visited.flatMap fun n => c.registry.notices n.name⟩)

/-! ## Building -/

/-- What comes of builds: their results, what they reported, and the fault that ended them, if one
was handed on. -/
structure Built where
  results : List BuildResult
  log : Log
  raised : Option Fault

namespace Built

/-- Nothing was built. -/
def none : Built := ⟨[], [], .none⟩

/-- Some builds after others. -/
def append (a b : Built) : Built :=
  ⟨a.results ++ b.results, a.log ++ b.log, a.raised.or b.raised⟩

/-- Goes on to other builds, unless a fault was handed on; `left` is what they start from. -/
def goOn {α : Type} (b : Built) (left : α) (others : Unit → α × Built) : α × Built :=
  if b.raised.isSome then (left, b)
  else
    let (x, built) := others ()
    (x, b.append built)

end Built

/-- What the configuration provides for a build. -/
def services (c : Configuration) : Services := ⟨.configuration c.name, c.sources, c.visitors⟩

/-- Builds an instance of a node, if a plugin type is noted at it, and notes the instance. -/
def buildOne (s : Services) (event : Option Event) (reserved : List String) (n : Node) :
    Node × Built :=
  match n.type with
  | .none => (n, .none)
  | some t =>
    match Job.run ⟨t, n, s.configuration, s.sources, s.visitors, event, reserved⟩ with
    | (.ok result, log) => (n.withBuilt result.built, ⟨[result], log, .none⟩)
    | (.error f, log) => (n, ⟨[], log, some f⟩)

mutual

/-- Builds a node after those below it; a plugin that looks after its children has them left
alone. -/
def buildNode (s : Services) (event : Option Event) : Node → Node × Built
  | ⟨name, attributes, text, slot, children⟩ =>
    if slot.type.any (·.deferChildren) then
      buildOne s event [] ⟨name, attributes, text, slot, children⟩
    else
      let (children, below) := buildNodes s event children
      let n : Node := ⟨name, attributes, text, slot, children⟩
      below.goOn n fun _ => buildOne s event [] n

/-- Builds several nodes one after the other. -/
def buildNodes (s : Services) (event : Option Event) : List Node → List Node × Built
  | [] => ([], .none)
  | n :: ns =>
    let (n, first) := buildNode s event n
    let (ns, built) := first.goOn ns fun _ => buildNodes s event ns
    (n :: ns, built)

end

/-- Builds the children of a root except those that declare properties. -/
def buildElements (s : Services) (event : Option Event) : List Node → List Node × Built
  | [] => ([], .none)
  | n :: ns =>
    let (n, first) := if isPropertiesBlock n then (n, .none) else buildNode s event n
    let (ns, built) := first.goOn ns fun _ => buildElements s event ns
    (n :: ns, built)

/-- Builds a root after its children. -/
def buildRoot (s : Services) (event : Option Event) (root : Node) : Node × Built :=
  let (children, below) := buildElements s event root.children
  let root := root.withChildren children
  below.goOn root fun _ => buildOne s event [propertiesName] root

/-- What is reported at the end of a build. -/
def summary (c : Configuration) : Record :=
  .info ("Built " ++ toString c.results.length ++ " element(s) of " ++ c.name.text ++ ", " ++
    toString (c.results.filter (!·.ok)).length ++ " failure(s)")

/-- A build that is over: the configuration as it is then, what was reported, and the fault that
ended the build, if one did. -/
structure Pass where
  configuration : Configuration
  report : Report
  raised : Option Fault

/-- Builds the elements of a configuration whose plugin types have been looked up. -/
def buildResolved (c : Configuration) (event : Option Event) : Pass :=
  let (root, built) := buildRoot c.services event c.root
  let c := { c with
    root := root, results := c.results ++ built.results,
    diagnostics := c.diagnostics ++ built.results.flatMap (·.diagnostics) }
  ⟨c, ⟨built.log ++ if built.raised.isSome then [] else [c.summary], []⟩, built.raised⟩

/-- Builds the elements of a configuration; plugin types are looked up first if they have not
been. -/
def build (c : Configuration) (event : Option Event) : Pass :=
  let (c, before) := if c.resolved then (c, ⟨[], []⟩) else c.setup
  let pass := c.buildResolved event
  { pass with report := before.append pass.report }

/-- The instance built of the first element, bottom-up, that has a name as its attribute `name` or
as its own and of which one was built. -/
def builtOf (c : Configuration) (name : String) : Value :=
  let named := fun (n : Node) =>
    (n.attribute? "name").bind Value.str? == some name || n.name == name
  ((c.root.walk.find? fun n => named n && !n.built.isNull).map Node.built).getD .null

end Configuration
end ConfigAssembly
