import ConfigAssembly.Document.Content
import ConfigAssembly.Value.Text

/-!
# Elements of a document

The entries of a mapping are read as what an element holds: a scalar is an attribute, a mapping an
element below, nothing an empty element below, and a sequence as many elements below as it has
items, where a scalar is the text of its element. A document has one root element. Elements are
numbered as they are made, an element before those that are added to it.
-/

namespace ConfigAssembly

/-- Why content is no tree of elements. -/
inductive ShapeFault where
  /-- An item of a sequence, or the root, is a sequence itself. -/
  | sequenceAt (element : String)
  /-- Content does not have exactly one root element. -/
  | notOneRoot
  /-- A collection holds itself, so the tree has no end. -/
  | endless
  /-- An integer is too long to be written. -/
  | longInteger
  deriving DecidableEq, Repr

/-- The text of a key. -/
def keyText (v : Value) : Except ShapeFault String :=
  if v.isTooLong then .error .longInteger else .ok v.text

/-- The text of a scalar: truth values are written as words in lower case. -/
def scalarText : Value → Except ShapeFault String
  | .bool b => .ok (if b then "true" else "false")
  | v => keyText v

/-- A computation that makes elements; the state is the number of the next one. -/
abbrev Making := StateT Nat (Except ShapeFault)

namespace LinkedTree

/-- A new element without anything in it. -/
def new (name : String) : Making (LinkedTree String) := fun number =>
  .ok (create number name [] none [], number + 1)

/-- An element with an attribute written. -/
def withAttribute (t : LinkedTree String) (key value : String) : LinkedTree String :=
  { t with attributes := Assoc.insert key value t.attributes }

mutual

/-- Makes the element of a name with given content. -/
def makeContent (name : String) : Content → Making (LinkedTree String)
  | .scalar .null => new name
  | .scalar v => do
    let t ← new name
    let s ← scalarText v
    pure { t with text := some s }
  | .sequence _ => throw (.sequenceAt name)
  | .againSequence => throw (.sequenceAt name)
  | .againMapping => throw .endless
  | .mapping es => do
    let t ← new name
    makeEntries t es

/-- Adds the entries of a mapping to an element. -/
def makeEntries (t : LinkedTree String) : List (Value × Content) → Making (LinkedTree String)
  | [] => pure t
  | (k, c) :: es => do
    let name ← keyText k
    let t ← makeEntry t name c
    makeEntries t es

/-- Adds the value of an entry to an element. -/
def makeEntry (t : LinkedTree String) (name : String) : Content → Making (LinkedTree String)
  | .scalar .null => do
    let child ← new name
    pure (t.addChild child)
  | .scalar v => do
    let s ← scalarText v
    pure (t.withAttribute name s)
  | .sequence items => makeItems t name items
  | .againSequence => throw .endless
  | .againMapping => throw .endless
  | .mapping inner => do
    let child ← new name
    let child ← makeEntries child inner
    pure (t.addChild child)

/-- Adds the elements of one name for the items of a sequence to an element. -/
def makeItems (t : LinkedTree String) (name : String) : List Content → Making (LinkedTree String)
  | [] => pure t
  | c :: cs => do
    let child ← makeContent name c
    makeItems (t.addChild child) name cs

end

/-- The element of a name with given content. -/
def ofContent (name : String) (c : Content) : Except ShapeFault (LinkedTree String) :=
  (makeContent name c).run' 0

/-- The root element of a document. -/
def ofDocument : Content → Except ShapeFault (LinkedTree String)
  | .mapping [(k, c)] => do
    let name ← keyText k
    ofContent name c
  | _ => .error .notOneRoot

end LinkedTree
end ConfigAssembly
