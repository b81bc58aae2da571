import ConfigAssembly.Fault
import ConfigAssembly.Input

/-!
# Plugin classes

A plugin class offers methods of two kinds. A factory makes an instance of the values of its
parameters. A builder factory opens a builder, an object whose fields are set one by one and which
then makes the instance.
-/

namespace ConfigAssembly

/-- The state of a builder: the fields that are set. -/
abbrev Fields := Assoc String Value

/-- A field of a builder. -/
structure BuilderField where
  name : String
  hint : Option Hint
  /-- The value of the field before it is set. -/
  initial : Option Value

/-- The name under which a builder is asked to make its instance. -/
def buildName : String := "build"

/-- A kind of builder. Of several declarations of one field each says what it says anew; those of a
builder that it extends come first. -/
structure BuilderClass where
  /-- The word for such builders in messages. -/
  label : String
  fields : List BuilderField
  /-- Makes an instance of the fields that are set; a builder may lack it. -/
  build? : Option (Fields → Except Fault Value)

namespace BuilderClass

/-- The names of the fields of some declarations, each at its first place. -/
def namesOf (fields : List BuilderField) : List String :=
  (Assoc.ofList (fields.map fun f => (f.name, ()))).keys

/-- The declared types of the fields, each at the place of the first one; of several the last
counts. -/
def hints (b : BuilderClass) : Assoc String Hint :=
  Assoc.ofList (b.fields.filterMap fun f => f.hint.map fun h => (f.name, h))

/-- The inputs of a builder. -/
def inputs (b : BuilderClass) : List Input :=
  Input.ofFields (b.hints.map fun (name, h) => ⟨name, some h⟩)

/-- The fields that are set in a new builder. What makes the instance stands above a field of its
name. -/
def initial (b : BuilderClass) : Fields :=
  (Assoc.ofList (b.fields.filterMap fun f => f.initial.map fun v => (f.name, v))).filter fun e =>
    !(b.build?.isSome && e.1 == buildName)

/-- Makes the instance. A field of the name that the builder is asked under is in the way. -/
def finish (b : BuilderClass) (fields : Fields) : Except Fault Value :=
  match fields.get? buildName with
  | some x => .error (.said .type ("'" ++ x.typeName ++ "' object is not callable"))
  | none =>
    match b.build? with
    | none => .error (Fault.missing b.label buildName)
    | some build => build fields

end BuilderClass

/-- How a method belongs to its class; only methods that need no instance can be entry points. -/
inductive MethodForm where
  | static
  | ofClass
  | ofInstance
  deriving DecidableEq, Repr

/-- What an entry point does. -/
inductive Entry where
  /-- Makes an instance of the values of parameters. -/
  | factory (parameters : List Parameter) (create : List Value → Except Fault Value)
  /-- Opens a builder, or none; `parameters` tells for each parameter whether it may be left out. -/
  | builderFactory (parameters : List (String × Bool)) (start : Except Fault (Option BuilderClass))

/-- The two kinds of entry points. -/
inductive EntryKind where
  | builderFactory
  | factory
  deriving DecidableEq, Repr

/-- The word for a kind of entry point. -/
def EntryKind.label : EntryKind → String
  | .builderFactory => "builder_factory"
  | .factory => "factory"

/-- The kind of an entry point. -/
def Entry.kind : Entry → EntryKind
  | .factory .. => .factory
  | .builderFactory .. => .builderFactory

/-- A method that is an entry point. -/
structure Method where
  name : String
  form : MethodForm
  entry : Entry

/-- A plugin class. The key tells classes apart that share a name. -/
structure PluginClass where
  key : Nat
  name : String
  moduleName : String
  methods : List Method

/-- The class with methods declared one after the other: a repeated name keeps its place and takes
the later method. -/
def PluginClass.ofDeclared (key : Nat) (name moduleName : String) (methods : List Method) :
    PluginClass :=
  ⟨key, name, moduleName, (Assoc.ofList (methods.map fun m => (m.name, m))).values⟩

end ConfigAssembly
