import ConfigAssembly.Assoc
import ConfigAssembly.Yaml.Graph
import ConfigAssembly.Yaml.Token.Stream

/-!
# The graph of a document

`readGraph` reads the nodes of a text, which may hold one document. A node is entered before what it
holds, so that what it holds may refer to it. Every function here takes the fuel that is left: a
node takes a token at least, so twice the number of tokens suffices.
-/

namespace ConfigAssembly.Yaml

/-- The state of reading nodes. -/
structure Reading where
  /-- The tokens that are left. -/
  tokens : List Token
  /-- What is met beyond the tokens. -/
  beyond : Fault
  graph : Graph
  anchors : Assoc String NodeId
  /-- What the handles of tags stand for. -/
  handles : Assoc String String
  /-- The number of collections around the place. -/
  depth : Nat

/-- Reads something. -/
abbrev Reader := StateT Reading (Except Fault)

namespace Reader

/-- The text has no such form. -/
def fail {α : Type} : Reader α := throw .malformed

/-- The next token. -/
def peek : Reader Token := do
  match (← get).tokens with
  | t :: _ => pure t
  | [] => throw (← get).beyond

/-- Passes the next token. -/
def pass : Reader Unit := modify fun r => { r with tokens := r.tokens.tail }

/-- Passes the next token if it is a given one. -/
def passIf (t : Token) : Reader Bool := do
  if (← peek) == t then
    pass
    pure true
  else pure false

/-- Passes the next token, which must be a given one. -/
def require (t : Token) : Reader Unit := do
  if !(← passIf t) then fail

/-- Whether the next token is one of some. -/
def nextIs (ts : List Token) : Reader Bool := return ts.contains (← peek)

/-! ## Nodes without their content -/

/-- Enters a node. -/
def enter (anchor : Option String) (n : GraphNode) : Reader NodeId := do
  let id := (← get).graph.size
  modify fun r => { r with
    graph := r.graph.push n
    anchors := match anchor with
      | some a => r.anchors.insert a id
      | none => r.anchors }
  pure id

/-- Enters a collection and reads what it holds. -/
def collect (anchor : Option String) (n : GraphNode) (content : Reader Shape) : Reader NodeId := do
  let id ← enter anchor n
  if (← get).depth ≥ deepestNode then throw .tooDeep
  modify fun r => { r with depth := r.depth + 1 }
  let shape ← content
  modify fun r => { r with depth := r.depth - 1, graph := r.graph.setShape id shape }
  pure id

/-- A scalar without a text. -/
def enterEmpty : Reader NodeId := enter none ⟨.null, .scalar ""⟩

/-- The node that a name refers to. -/
def referenced (name : String) : Reader NodeId := do
  match (← get).anchors.get? name with
  | some id => pure id
  | none => fail

/-- A tag as it is written out. -/
def writtenOut (handle : Option String) (rest : String) : Reader String := do
  match handle with
  | none => pure rest
  | some h => match (← get).handles.get? h with
    | some stem => pure (stem ++ rest)
    | none => fail

/-- The anchor that comes next, if one does. -/
def anchor? : Reader (Option String) := do
  match ← peek with
  | .anchor a => do
    pass
    pure (some a)
  | _ => pure none

/-- The tag that comes next, if one does. -/
def tag? : Reader (Option (Option String × String)) := do
  match ← peek with
  | .tag h rest => do
    pass
    pure (some (h, rest))
  | _ => pure none

/-- What is said about a node in front of it: an anchor and a tag, in either order. An anchor has
one node only. -/
def properties : Reader (Option String × Option String) := do
  let before ← anchor?
  let tag ← tag?
  let anchor ← if before.isSome || tag.isNone then pure before else anchor?
  let tag ← match tag with
    | some (h, rest) => some <$> writtenOut h rest
    | none => pure none
  pure (anchor, tag)

/-- Checks that an anchor is new. -/
def checkNew (anchor : Option String) : Reader Unit := do
  if let some a := anchor then
    if (← get).anchors.has a then fail

/-- The tag that leaves it to the node what it is. -/
def neutralTag : String := "!"

/-- The tag of a scalar. A scalar that is not plain is a text unless its tag leaves it open. -/
def scalarTag (tag : Option String) (plain : Bool) (text : String) : Tag :=
  match tag with
  | none => if plain then .ofPlain text else .str
  | some t => if t == neutralTag then .ofPlain text else .ofText t

/-- The tag of a collection. -/
def collectionTag (tag : Option String) (usual : Tag) : Tag :=
  match tag with
  | none => usual
  | some t => if t == neutralTag then usual else .ofText t

/-! ## Nodes -/

mutual

/-- A node; block collections may come if `block` is set, a sequence that is not indented if
`indentless` is. -/
def node (fuel : Nat) (block indentless : Bool) : Reader NodeId :=
  match fuel with
  | 0 => fail
  | fuel + 1 => do
    match ← peek with
    | .reference name => do
      pass
      referenced name
    | _ => do
      let (anchor, tag) ← properties
      let sequence := fun (items : Reader (List NodeId)) => do
        checkNew anchor
        collect anchor ⟨collectionTag tag .sequence, .sequence []⟩ (.sequence <$> items)
      let mapping := fun (entries : Reader (List (NodeId × NodeId))) => do
        checkNew anchor
        collect anchor ⟨collectionTag tag .mapping, .mapping []⟩ (.mapping <$> entries)
      match ← peek with
      | .scalar text plain => do
        pass
        checkNew anchor
        enter anchor ⟨scalarTag tag plain text, .scalar text⟩
      | .flowSequenceStart => do
        pass
        sequence (flowItems fuel true)
      | .flowMappingStart => do
        pass
        mapping (flowEntries fuel true)
      | t =>
        if indentless && t == .blockEntry then sequence (indentlessItems fuel)
        else if block && t == .blockSequenceStart then do
          pass
          sequence (blockItems fuel)
        else if block && t == .blockMappingStart then do
          pass
          mapping (blockEntries fuel)
        else if anchor.isSome || tag.isSome then do
          checkNew anchor
          enter anchor ⟨scalarTag tag true "", .scalar ""⟩
        else fail

/-- A node, or an empty scalar if one of some tokens comes next. -/
def nodeUnless (fuel : Nat) (block indentless : Bool) (ends : List Token) : Reader NodeId :=
  match fuel with
  | 0 => fail
  | fuel + 1 => do
    if ← nextIs ends then enterEmpty else node fuel block indentless

/-- The items of an indented block sequence. -/
def blockItems (fuel : Nat) : Reader (List NodeId) :=
  match fuel with
  | 0 => fail
  | fuel + 1 => do
    if ← passIf .blockEntry then
      let item ← nodeUnless fuel true false [.blockEntry, .blockEnd]
      return item :: (← blockItems fuel)
    else
      require .blockEnd
      pure []

/-- The items of a block sequence that is not indented. -/
def indentlessItems (fuel : Nat) : Reader (List NodeId) :=
  match fuel with
  | 0 => fail
  | fuel + 1 => do
    if ← passIf .blockEntry then
      let item ← nodeUnless fuel true false [.blockEntry, .key, .value, .blockEnd]
      return item :: (← indentlessItems fuel)
    else pure []

/-- The value of an entry of a mapping: empty if it is not marked. -/
def marked (fuel : Nat) (block indentless : Bool) (ends : List Token) : Reader NodeId :=
  match fuel with
  | 0 => fail
  | fuel + 1 => do
    if ← passIf .value then nodeUnless fuel block indentless ends else enterEmpty

/-- The entries of a block mapping. -/
def blockEntries (fuel : Nat) : Reader (List (NodeId × NodeId)) :=
  match fuel with
  | 0 => fail
  | fuel + 1 => do
    let ends := [.key, .value, .blockEnd]
    if ← passIf .key then
      let key ← nodeUnless fuel true true ends
      let value ← marked fuel true true ends
      return (key, value) :: (← blockEntries fuel)
    else
      require .blockEnd
      pure []

/-- The items of a flow sequence. An entry with a mark of a key is a mapping of its own. -/
def flowItems (fuel : Nat) (first : Bool) : Reader (List NodeId) :=
  match fuel with
  | 0 => fail
  | fuel + 1 => do
    if ← passIf .flowSequenceEnd then return []
    if !first then require .flowEntry
    if ← passIf .key then
      let item ← collect none ⟨.mapping, .mapping []⟩ do
        let key ← nodeUnless fuel false false [.value, .flowEntry, .flowSequenceEnd]
        let value ← marked fuel false false [.flowEntry, .flowSequenceEnd]
        pure (.mapping [(key, value)])
      return item :: (← flowItems fuel false)
    else if ← passIf .flowSequenceEnd then return []
    else
      let item ← node fuel false false
      return item :: (← flowItems fuel false)

/-- The entries of a flow mapping. An entry without a mark of a key has an empty value. -/
def flowEntries (fuel : Nat) (first : Bool) : Reader (List (NodeId × NodeId)) :=
  match fuel with
  | 0 => fail
  | fuel + 1 => do
    if ← passIf .flowMappingEnd then return []
    if !first then require .flowEntry
    if ← passIf .key then
      let key ← nodeUnless fuel false false [.value, .flowEntry, .flowMappingEnd]
      let value ← marked fuel false false [.flowEntry, .flowMappingEnd]
      return (key, value) :: (← flowEntries fuel false)
    else if ← passIf .flowMappingEnd then return []
    else
      let key ← node fuel false false
      let value ← enterEmpty
      return (key, value) :: (← flowEntries fuel false)

end

/-! ## The document -/

/-- The handles that need no declaration. -/
def usualHandles : Assoc String String := [("!", "!"), ("!!", Tag.standardStem)]

/-- Directives in front of a document: one version at most, which must be 1, and what handles stand
for. -/
def directives (fuel : Nat) (versioned : Bool) (handles : Assoc String String) :
    Reader (Assoc String String) :=
  match fuel with
  | 0 => fail
  | fuel + 1 => do
    match ← peek with
    | .directive .other => do
      pass
      directives fuel versioned handles
    | .directive (.version major) => do
      pass
      if versioned || major != 1 then fail
      directives fuel true handles
    | .directive (.handle name stem) => do
      pass
      if handles.has name then fail
      directives fuel versioned (handles.insert name stem)
    | _ => pure handles

/-- Passes marks of the end of a document. -/
def passDocumentEnds (fuel : Nat) : Reader Unit :=
  match fuel with
  | 0 => pure ()
  | fuel + 1 => do
    if ← passIf .documentEnd then passDocumentEnds fuel

/-- The root of a marked document, if the text has one. -/
def markedDocument? (fuel : Nat) : Reader (Option NodeId) := do
  if ← nextIs [.streamEnd] then return none
  let declared ← directives fuel false []
  require .documentStart
  modify fun r => { r with handles := declared ++ usualHandles.filter fun h => !declared.has h.1 }
  match ← peek with
  | .directive _ | .documentStart | .documentEnd | .streamEnd => some <$> enterEmpty
  | _ => some <$> node fuel true false

/-- The root of the document, if the text has one. Nothing but its end may follow. -/
def document? (fuel : Nat) : Reader (Option NodeId) := do
  let root ← match ← peek with
    | .directive _ | .documentStart | .streamEnd => markedDocument? fuel
    | _ => some <$> node fuel true false
  passDocumentEnds fuel
  require .streamEnd
  pure root

end Reader

/-- The graph of a text and its root, if the text holds a document. -/
def readGraph (text : String) : Except Fault (Graph × Option NodeId) :=
  let (tokens, fault) := tokensOf text
  let start : Reading := ⟨tokens, fault.getD .malformed, #[], [], Reader.usualHandles, 0⟩
  match (Reader.document? (4 * tokens.length + 4)).run start with
  | .ok (root, r) => .ok (r.graph, root)
  | .error f => .error f

end ConfigAssembly.Yaml
