import ConfigAssembly.TypeExpr
import ConfigAssembly.Value

/-!
# Inputs

What a plugin declares about the values it needs. A declared type may carry metadata; the markers
among them say where the value comes from, and aliases say under which other names it is found. A
union may have alternatives that carry metadata themselves. Of a declaration one annotation is read
(`Hint.annotation?`), and `Input.ofHint?` makes an input of it. Parameters and fields that carry no
marker are no inputs.
-/

namespace ConfigAssembly

/-- Where an input comes from. -/
inductive Origin where
  /-- An attribute of the element. -/
  | attribute (default : Value) (required sensitive substitute : Bool)
  /-- The instances built of elements below. -/
  | element (required : Bool)
  /-- The text of the element, or an attribute in its place. -/
  | text (default : Value) (required substitute : Bool)
  /-- The element itself. -/
  | node
  /-- The configuration that the element belongs to. -/
  | configuration
  /-- A kind that the library does not know. -/
  | custom (kind : String)
  deriving Inhabited

/-- The kind under which a visitor for an origin is registered. -/
def Origin.kind : Origin → String
  | .attribute .. => "attribute"
  | .element .. => "element"
  | .text .. => "value"
  | .node => "node"
  | .configuration => "configuration"
  | .custom kind => kind

/-- The name of an attribute that may stand for the text of an element. -/
def textName : String := "value"

/-- A marker of an input: an origin, and the name that is looked for, by default the name of the
input. -/
structure Marker where
  origin : Origin
  name : Option String
  deriving Inhabited

namespace Marker

/-- A marker about whose name nothing is said. That of a text has a name nevertheless. -/
def ofOrigin (o : Origin) : Marker :=
  match o with
  | .text .. => ⟨o, some textName⟩
  | _ => ⟨o, none⟩

/-- The kind of a marker. -/
def kind (m : Marker) : String := m.origin.kind

/-- The name of a marker in messages. -/
def shownName (m : Marker) : String := m.name.getD "None"

/-- The marker with a name, its own if it has one. -/
def named (m : Marker) (name : String) : Marker := { m with name := some (m.name.getD name) }

/-- The word for a kind of marker in messages. -/
def label (m : Marker) : String :=
  match m.origin with
  | .attribute .. => "Attribute"
  | .element .. => "Element"
  | .text .. => "Value"
  | .node => "NodeRef"
  | .configuration => "ConfigurationRef"
  | .custom kind => kind.capitalize

/-- The value used when nothing is configured, if markers of this kind have one. -/
def default? (m : Marker) : Option Value :=
  match m.origin with
  | .attribute d _ _ _ | .text d _ _ => some d
  | _ => none

/-- Whether tokens are replaced, if markers of this kind say so. -/
def substitute? (m : Marker) : Option Bool :=
  match m.origin with
  | .attribute _ _ _ s | .text _ _ s => some s
  | _ => none

/-- Whether the value is kept out of traces, if markers of this kind say so. -/
def sensitive? (m : Marker) : Option Bool :=
  match m.origin with
  | .attribute _ _ s _ => some s
  | _ => none

/-- Whether a value must be there, if markers of this kind say so. -/
def required? (m : Marker) : Option Bool :=
  match m.origin with
  | .attribute _ r _ _ | .text _ r _ | .element r => some r
  | _ => none

end Marker

/-- What accompanies a declared type. -/
inductive Metadata where
  | marker (m : Marker)
  /-- Other names of the input, in the order in which they are tried. -/
  | aliases (names : List String)
  /-- Something that means nothing to the library. -/
  | foreign (text : String)

/-- A declared type. -/
inductive Hint where
  /-- A type without metadata. -/
  | type (t : TypeExpr)
  /-- A declaration with metadata around it. -/
  | annotated (inner : Hint) (metadata : List Metadata)
  /-- One of several alternatives, of which some carry metadata. -/
  | union (alternatives : List Hint)

/-- A type with its metadata, as it is read off a declaration. -/
structure Annotation where
  type : TypeExpr
  metadata : List Metadata

namespace Hint

/-- The type of an alternative. One that carries metadata is a type that nothing is converted to. -/
def alternativeType : Hint → TypeExpr
  | .type t => t
  | _ => .instanceOf "Annotated"

/-- The type of what metadata is put around. -/
def innerType : Hint → TypeExpr
  | .union hs => .ofUnion (hs.map alternativeType)
  | h => h.alternativeType

/-- The annotation of a declaration with metadata around it. Metadata that is put around metadata
comes after it. -/
def ownAnnotation? : Hint → Option Annotation
  | .annotated inner metadata =>
    let a := inner.ownAnnotation?.getD ⟨inner.innerType, []⟩
    some ⟨a.type, a.metadata ++ metadata⟩
  | _ => none

/-- The annotation that is read off a declaration: its own, or the first one among its
alternatives. -/
def annotation? : Hint → Option Annotation
  | .union hs => hs.findSome? ownAnnotation?
  | h => h.ownAnnotation?

/-- The declaration with nothing as another alternative. -/
def optional : Hint → Hint
  | .type t => .type (.ofUnion [t, .basic .null])
  | .union hs => .union (hs ++ [.type (.basic .null)])
  | h => .union [h, .type (.basic .null)]

end Hint

/-- A parameter or field, perhaps with a declared type. -/
structure Parameter where
  name : String
  hint : Option Hint

/-- One input of a way of construction. -/
structure Input where
  /-- Name of the field or parameter. -/
  name : String
  /-- The markers, each with a name. -/
  markers : List Marker
  /-- Other names, in the order in which they are tried. -/
  aliases : List String
  /-- Type that a configured text is converted to. -/
  type : TypeExpr
  /-- Place among the parameters, for a parameter. -/
  position : Option Nat
  deriving Inhabited

namespace Annotation

/-- The markers among metadata, each with a name. -/
def markers (a : Annotation) (name : String) : List Marker :=
  a.metadata.filterMap fun
    | .marker m => some (m.named name)
    | _ => none

/-- The aliases among metadata; of several lists the last counts. -/
def aliases (a : Annotation) : List String :=
  a.metadata.foldl (fun as m => match m with | .aliases names => names | _ => as) []

end Annotation

namespace Input

/-- The input that an annotation makes of a parameter or field; one without markers makes none. -/
def ofAnnotation? (name : String) (a : Annotation) (position : Option Nat) : Option Input :=
  let markers := a.markers name
  if markers.isEmpty then none else some ⟨name, markers, a.aliases, a.type, position⟩

/-- The input that a declaration makes of a parameter or field. -/
def ofHint? (name : String) (h : Hint) (position : Option Nat) : Option Input :=
  h.annotation?.bind fun a => ofAnnotation? name a position

/-- A parameter that nothing is known about. -/
def bare (name : String) (position : Nat) : Input := ⟨name, [], [], .basic .str, some position⟩

/-- The input of a parameter at a place; every parameter has one. -/
def ofParameter (p : Parameter) (position : Nat) : Input :=
  (p.hint.bind fun h => ofHint? p.name h (some position)).getD (bare p.name position)

/-- The inputs of parameters, one for each, in their order. -/
def ofParameters (ps : List Parameter) : List Input := ps.zipIdx.map fun (p, i) => ofParameter p i

/-- The inputs of fields, in their order. -/
def ofFields (ps : List Parameter) : List Input :=
  ps.filterMap fun p => p.hint.bind fun h => ofHint? p.name h none

end Input
end ConfigAssembly
