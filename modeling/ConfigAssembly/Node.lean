import ConfigAssembly.Plugin.Type

/-!
# Nodes

A node is an element of a configuration that is being built: its slot holds the plugin type that was
found for it and the instance that was built of it. Nothing else about the tree changes while it is
built.
-/

namespace ConfigAssembly

/-- What is noted at an element while a configuration is built. -/
structure Slots where
  /-- The plugin type, once found. -/
  type : Option PluginType
  /-- The instance, once built. -/
  built : Value
  deriving Inhabited

/-- The slots of an element that nothing was noted at. -/
def Slots.empty : Slots := ⟨none, .null⟩

/-- An element with its slots. -/
abbrev Node := Tree Value Slots

namespace Node

/-- The plugin type of a node. -/
def type (n : Node) : Option PluginType := n.slot.type

/-- The instance built of a node. -/
def built (n : Node) : Value := n.slot.built

/-- The node with a plugin type noted. -/
def withType (n : Node) (t : Option PluginType) : Node :=
  { n with slot := { n.slot with type := t } }

/-- The node with an instance noted. -/
def withBuilt (n : Node) (v : Value) : Node := { n with slot := { n.slot with built := v } }

/-- The node with other children. -/
def withChildren (n : Node) (cs : List Node) : Node := { n with children := cs }

/-- The name of a node in diagnostics: that of its plugin's elements, or its own if no plugin was
found. -/
def elementName (n : Node) : String :=
  match n.type with
  | some t => t.elementName
  | none => n.name

/-- The element as an input receives it. -/
def snapshot (n : Node) : Element := n.map id fun s => s.type.map (·.descriptor)

end Node

/-- The tree of a document as that of a configuration to build: nothing is noted yet. -/
def Tree.node {σ : Type} (t : Tree String σ) : Node := t.map .str fun _ => Slots.empty

end ConfigAssembly
