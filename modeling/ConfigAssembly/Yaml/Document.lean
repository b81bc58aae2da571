import ConfigAssembly.Document.Content
import ConfigAssembly.Yaml.Graph.Merge
import ConfigAssembly.Yaml.Graph.Reader
import ConfigAssembly.Yaml.Scalar.Typed

/-!
# Documents

`readDocument` gives the content of a text. The nodes of its graph are made level by level from the
root down: a scalar when the collection that holds it is filled, a collection empty at first and
filled later. So of two faults the one that lies less deep is found first. What an inclusion stands
for is asked of the caller.
-/

namespace ConfigAssembly.Yaml

/-- A key that was made of a node. Numbers that are not numbers are one key only if they come from
one place. -/
structure EntryKey where
  value : Value
  /-- The node of a number that is none, unless it is written as the common one. -/
  origin : Option NodeId

/-- Whether a value is a number that is none. -/
def isNan : Value → Bool
  | .float .nan => true
  | _ => false

instance : BEq EntryKey :=
  ⟨fun a b => if isNan a.value && isNan b.value then a.origin == b.origin else a.value == b.value⟩

/-- What a collection holds. -/
inductive Body where
  | sequence (items : List NodeId)
  | mapping (entries : Assoc EntryKey NodeId)
  | set (keys : Assoc EntryKey NodeId)
  | pairs (entries : List (NodeId × NodeId))

/-- What was made of a node. -/
inductive Made where
  | whole (c : Content)
  | collection (b : Body)

/-- The state of making nodes. -/
structure Making where
  graph : Graph
  made : Array (Option Made)
  /-- Collections that are to be filled. -/
  waiting : List NodeId

/-- How a document is tied to what is around it: what an inclusion stands for, and what a fault of
the document means. -/
structure Surroundings (ε : Type) where
  included : String → Except ε Content
  fault : Fault → ε

/-- Makes something of the nodes of a document. -/
abbrev Maker (ε : Type) := StateT Making (Except ε)

namespace Maker

variable {ε : Type}

/-- Raises a fault of the document. -/
def fail {α : Type} (s : Surroundings ε) (f : Fault) : Maker ε α := throw (s.fault f)

/-- The outcome of something that may have found a fault of the document. -/
def lift {α : Type} (s : Surroundings ε) (r : Except Fault α) : Maker ε α :=
  match r with
  | .ok a => pure a
  | .error f => fail s f

/-- Notes what was made of a node. -/
def note (id : NodeId) (m : Made) : Maker ε Made := do
  modify fun w => { w with made := w.made.setIfInBounds id (some m) }
  pure m

/-- Notes an empty collection, to be filled later. -/
def noteEmpty (id : NodeId) (b : Body) : Maker ε Made := do
  modify fun w => { w with waiting := w.waiting ++ [id] }
  note id (.collection b)

/-- The text of a node where a scalar is expected. -/
def textOf (s : Surroundings ε) (id : NodeId) : Maker ε String := do
  lift s ((← get).graph.text id)

/-- Makes a node, unless it is made already. -/
def make (s : Surroundings ε) (id : NodeId) : Maker ε Made := do
  match (← get).made[id]? with
  | some (some m) => pure m
  | _ =>
    match (← get).graph.tag? id with
    | none => fail s .malformed
    | some .sequence => noteEmpty id (.sequence [])
    | some .mapping => noteEmpty id (.mapping [])
    | some .set => noteEmpty id (.set [])
    | some .pairs => noteEmpty id (.pairs [])
    | some .inclusion => do
      let c ← StateT.lift (s.included (← textOf s id))
      note id (.whole c)
    | some t => do
      let v ← lift s (t.scalarValue (← textOf s id))
      note id (.whole (.scalar v))

/-- The value of a key; a collection can be none. -/
def keyValue? : Made → Option Value
  | .whole (.scalar (.set _)) => none
  | .whole (.scalar v) => some v
  | _ => none

/-- The key that was made of a node. -/
def keyOf? (g : Graph) (id : NodeId) (m : Made) : Option EntryKey :=
  (keyValue? m).map fun v => ⟨v, if (g.text id).toOption.any writesNan then none else some id⟩

/-- Makes the entries of a mapping, after merging. Of entries with the same key the last gives the
value. -/
def makeEntries (s : Surroundings ε) (id : NodeId) : Maker ε (Assoc EntryKey NodeId) := do
  let w ← get
  let (es, g) ← lift s ((do
    Merger.mergeKeys (w.graph.entryCount + 1) id
    Merger.entries id : Merger _).run w.graph)
  set { w with graph := g }
  es.foldlM (fun made (key, value) => do
    match keyOf? w.graph key (← make s key) with
    | none => fail s .malformed
    | some k => do
      let _ ← make s value
      pure (made.insert k value)) []

/-- Makes a pair of a mapping of one entry. -/
def makePair (s : Surroundings ε) (id : NodeId) : Maker ε (NodeId × NodeId) := do
  match (← get).graph[id]? with
  | some ⟨_, .mapping [(key, value)]⟩ => do
    let _ ← make s key
    let _ ← make s value
    pure (key, value)
  | _ => fail s .malformed

/-- Fills a collection. -/
def fill (s : Surroundings ε) (id : NodeId) : Maker ε Unit := do
  let body ← match (← get).graph[id]? with
    | some ⟨.sequence, .sequence items⟩ => do
      for item in items do
        let _ ← make s item
      pure (Body.sequence items)
    | some ⟨.mapping, _⟩ => .mapping <$> makeEntries s id
    | some ⟨.set, _⟩ => .set <$> makeEntries s id
    | some ⟨.pairs, .sequence items⟩ => .pairs <$> items.mapM (makePair s)
    | _ => fail s .malformed
  let _ ← note id (.collection body)

/-- Fills the collections that wait, and those that come to wait meanwhile. -/
def fillAll (s : Surroundings ε) (fuel : Nat) : Maker ε Unit :=
  match fuel with
  | 0 => pure ()
  | fuel + 1 => do
    match (← get).waiting with
    | [] => pure ()
    | id :: ids => do
      modify fun w => { w with waiting := ids }
      fill s id
      fillAll s fuel

end Maker

/-- Something that a value can be a part of: the collection of a node, or one of the pairs of a
node. -/
inductive Whole where
  | collection (id : NodeId)
  | pair (id : NodeId) (place : Nat)
  deriving DecidableEq

/-- The value that was made of a node; `around` is what the place is a part of. -/
def valueOf (made : Array (Option Made)) (fuel : Nat) (around : List Whole) (id : NodeId) : Value :=
  match fuel with
  | 0 => .null
  | fuel + 1 =>
    let within := fun (whole : Whole) (kind : CollectionKind) (v : (NodeId → Value) → Value) =>
      if around.contains whole then .again kind else v (valueOf made fuel (whole :: around))
    match made[id]? with
    | some (some (.whole c)) => c.value
    | some (some (.collection (.sequence items))) =>
      within (.collection id) .list fun inside => .list (items.map inside)
    | some (some (.collection (.mapping es))) =>
      within (.collection id) .dict fun inside => .dict (es.map fun (k, v) => (k.value, inside v))
    | some (some (.collection (.set es))) => .set (es.keys.map (·.value))
    | some (some (.collection (.pairs es))) =>
      if around.contains (.collection id) then .again .list
      else .list (es.zipIdx.map fun ((k, v), i) =>
        if around.contains (.pair id i) then .again .tuple
        else
          let inside := valueOf made fuel (.pair id i :: .collection id :: around)
          .tuple [inside k, inside v])
    | _ => .null

/-- The content that was made of a node; `around` are the collections that the place is a part
of. -/
def contentOf (made : Array (Option Made)) (fuel : Nat) (around : List NodeId) (id : NodeId) :
    Content :=
  match fuel with
  | 0 => .scalar .null
  | fuel + 1 =>
    let inside := contentOf made fuel (id :: around)
    let again := around.contains id
    match made[id]? with
    | some (some (.whole c)) => c
    | some (some (.collection (.sequence items))) =>
      if again then .againSequence else .sequence (items.map inside)
    | some (some (.collection (.mapping es))) =>
      if again then .againMapping else .mapping (es.map fun (k, v) => (k.value, inside v))
    | some (some (.collection (.set es))) => .scalar (.set (es.keys.map (·.value)))
    | some (some (.collection (.pairs es))) =>
      .sequence (es.zipIdx.map fun ((k, v), i) =>
        let inside := valueOf made (made.size + 2) [.pair id i]
        .scalar (.tuple [inside k, inside v]))
    | _ => .scalar .null

/-- The content of a text. A text without a document holds nothing. -/
def readDocument {ε : Type} (s : Surroundings ε) (text : String) : Except ε Content :=
  match readGraph text with
  | .error f => .error (s.fault f)
  | .ok (_, none) => .ok (.scalar .null)
  | .ok (g, some root) =>
    let made : Maker ε Unit := do
      let _ ← Maker.make s root
      Maker.fillAll s (g.size + 1)
    (made.run ⟨g, Array.replicate g.size none, []⟩).map fun (_, w) =>
      contentOf w.made (g.size + 1) [] root

end ConfigAssembly.Yaml
