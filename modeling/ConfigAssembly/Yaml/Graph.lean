import ConfigAssembly.Yaml.Fault
import ConfigAssembly.Yaml.Tag

/-!
# Node graphs

What a document is before its nodes get their values. Nodes refer to one another by number, because
a node may be referred to from several places and may even hold itself.
-/

namespace ConfigAssembly.Yaml

/-- The most collections that may lie around a node. -/
def deepestNode : Nat := 488

/-- The most steps to the text of a node where a scalar is expected. -/
def deepestText : Nat := 980

/-- The number of a node. -/
abbrev NodeId := Nat

/-- What a node holds. -/
inductive Shape where
  | scalar (text : String)
  | sequence (items : List NodeId)
  | mapping (entries : List (NodeId × NodeId))
  deriving DecidableEq, Repr

/-- A node. -/
structure GraphNode where
  tag : Tag
  shape : Shape
  deriving DecidableEq, Repr

/-- The nodes of a document, by their numbers. -/
abbrev Graph := Array GraphNode

namespace Graph

/-- The tag of a node. -/
def tag? (g : Graph) (id : NodeId) : Option Tag := (g[id]?).map GraphNode.tag

/-- What a node holds. -/
def shape? (g : Graph) (id : NodeId) : Option Shape := (g[id]?).map GraphNode.shape

/-- The text of a node where a scalar is expected: its own, or that of the value at the special key
of a mapping, down to a given depth. -/
def textWithin (g : Graph) (depth : Nat) (id : NodeId) : Except Fault String :=
  match depth with
  | 0 => .error .tooDeep
  | depth + 1 =>
    match g.shape? id with
    | some (.scalar s) => .ok s
    | some (.mapping es) =>
      match es.find? fun e => g.tag? e.1 == some .default with
      | some (_, v) => g.textWithin depth v
      | none => .error .malformed
    | _ => .error .malformed

/-- The text of a node where a scalar is expected. -/
def text (g : Graph) (id : NodeId) : Except Fault String := g.textWithin deepestText id

/-- Gives a node another shape. -/
def setShape (g : Graph) (id : NodeId) (s : Shape) : Graph :=
  g.modify id fun n => { n with shape := s }

/-- Gives a node another tag. -/
def setTag (g : Graph) (id : NodeId) (t : Tag) : Graph := g.modify id fun n => { n with tag := t }

end Graph
end ConfigAssembly.Yaml
