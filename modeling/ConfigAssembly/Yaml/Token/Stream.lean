import ConfigAssembly.Yaml.Scalar.Block
import ConfigAssembly.Yaml.Scalar.Quoted
import ConfigAssembly.Yaml.Token.Property

/-!
# The tokens of a text

`Scan.step` reads the next token. A key without a mark of its own is known as a key only by the
colon after it, so places where a key may have begun are remembered, and the token that marks the
key is put in there later. A key that may have begun at a place must end on the same line, within
`longestKey` characters.
-/

namespace ConfigAssembly.Yaml

/-- The most characters of a key that has no mark of its own. -/
def longestKey : Nat := 1024

/-- A place where a key may have begun. -/
structure PossibleKey where
  /-- The flow collections around the place. -/
  level : Nat
  /-- The number of tokens before the place. -/
  number : Nat
  /-- Whether nothing but a key can stand there. -/
  required : Bool
  index : Nat
  line : Nat
  column : Nat

/-- The state of reading tokens. -/
structure Scan where
  cursor : Cursor
  /-- The tokens so far, the latest first. -/
  tokens : List Token
  /-- The number of flow collections around the place. -/
  flow : Nat
  /-- The column of the innermost block collection; outside all of them it is `-1`. -/
  indent : Int
  /-- The columns of the block collections around the innermost one. -/
  outer : List Int
  /-- Whether a key without a mark may begin. -/
  keyAllowed : Bool
  keys : List PossibleKey

namespace Scan

/-- Nothing is read yet. -/
def start (cs : List Char) : Scan := ⟨.start cs, [], 0, -1, [], true, []⟩

/-- Adds a token. -/
def emit (s : Scan) (t : Token) : Scan := { s with tokens := t :: s.tokens }

/-- Puts a token in behind the first `number` tokens. -/
def emitAt (s : Scan) (number : Nat) (t : Token) : Scan :=
  let later := s.tokens.length - number
  { s with tokens := s.tokens.take later ++ t :: s.tokens.drop later }

/-- Goes to another place. -/
def goTo (s : Scan) (c : Cursor) : Scan := { s with cursor := c }

/-- Says whether a key without a mark may come next. -/
def allowKey (s : Scan) (allowed : Bool) : Scan := { s with keyAllowed := allowed }

/-- The column of the place. -/
def column (s : Scan) : Int := s.cursor.column

/-! ## Keys -/

/-- A place where a key can no longer have begun. -/
def isStale (s : Scan) (k : PossibleKey) : Bool :=
  k.line != s.cursor.line || longestKey < s.cursor.index - k.index

/-- Forgets the places where a key can no longer have begun. -/
def dropStale (s : Scan) : Except Fault Scan :=
  if s.keys.any fun k => s.isStale k && k.required then .error .malformed
  else .ok { s with keys := s.keys.filter fun k => !s.isStale k }

/-- Forgets the place where a key may have begun in the innermost collection. -/
def dropKey (s : Scan) : Except Fault Scan :=
  if s.keys.any fun k => k.level == s.flow && k.required then .error .malformed
  else .ok { s with keys := s.keys.filter (·.level != s.flow) }

/-- Remembers that a key may begin at the place. -/
def saveKey (s : Scan) : Except Fault Scan :=
  if s.keyAllowed then do
    let s ← s.dropKey
    let c := s.cursor
    pure { s with
      keys := ⟨s.flow, s.tokens.length, s.flow == 0 && s.indent == s.column,
        c.index, c.line, c.column⟩ :: s.keys }
  else pure s

/-! ## Indentation -/

/-- Closes the block collections of a column greater than a given one. -/
def closeBlocks (column : Int) : List Int → Int → List Token → Int × List Int × List Token
  | [], indent, tokens => (indent, [], tokens)
  | o :: os, indent, tokens =>
    if indent > column then closeBlocks column os o (.blockEnd :: tokens)
    else (indent, o :: os, tokens)

/-- Closes the block collections that are indented more than a column. Inside a flow collection
indentation does not matter. -/
def unwind (s : Scan) (column : Int) : Scan :=
  if s.flow != 0 then s
  else
    let (indent, outer, tokens) := closeBlocks column s.outer s.indent s.tokens
    { s with indent := indent, outer := outer, tokens := tokens }

/-- Opens a block collection at a column, if it is indented more than the innermost one; `number`
tokens come before it. -/
def openBlock (s : Scan) (column : Int) (number : Nat) (t : Token) : Scan :=
  if s.indent < column then
    { s.emitAt number t with indent := column, outer := s.indent :: s.outer }
  else s

/-- Opens a block collection at the place for a marked entry of it. In a block the entry must be
where a key may begin. -/
def openBlockHere (s : Scan) (t : Token) : Except Fault Scan :=
  if s.flow != 0 then .ok s
  else if s.keyAllowed then .ok (s.openBlock s.column s.tokens.length t)
  else .error .malformed

/-! ## Tokens of one kind each -/

/-- A token of a number of characters that ends every block collection. -/
def readDocumentMark (s : Scan) (t : Token) : Except Fault Scan := do
  let s ← (s.unwind (-1)).dropKey
  pure ((s.allowKey false).goTo (s.cursor.advance 3) |>.emit t)

/-- The end of the text. -/
def readEnd (s : Scan) : Except Fault Scan := do
  let s ← (s.unwind (-1)).dropKey
  pure (s.emit .streamEnd)

/-- A line that declares something. -/
def readDeclaration (s : Scan) : Except Fault Scan := do
  let s ← (s.unwind (-1)).dropKey
  let (d, c) ← readDirective s.cursor
  pure ((s.allowKey false).goTo c |>.emit (.directive d))

/-- The beginning of a flow collection. -/
def readFlowStart (s : Scan) (t : Token) : Except Fault Scan := do
  let s ← s.saveKey
  pure { s with
    cursor := s.cursor.step
    flow := s.flow + 1
    keyAllowed := true
    tokens := t :: s.tokens }

/-- The end of a flow collection. -/
def readFlowEnd (s : Scan) (t : Token) : Except Fault Scan := do
  let s ← s.dropKey
  if s.flow = 0 then throw .malformed
  pure { s with
    cursor := s.cursor.step
    flow := s.flow - 1
    keyAllowed := false
    tokens := t :: s.tokens }

/-- What separates the entries of a flow collection. -/
def readFlowEntry (s : Scan) : Except Fault Scan := do
  let s ← s.dropKey
  pure ((s.allowKey true).goTo s.cursor.step |>.emit .flowEntry)

/-- The mark of an entry of a block sequence. -/
def readBlockEntry (s : Scan) : Except Fault Scan := do
  let s ← (← s.openBlockHere .blockSequenceStart).dropKey
  pure ((s.allowKey true).goTo s.cursor.step |>.emit .blockEntry)

/-- The mark of a key. -/
def readKey (s : Scan) : Except Fault Scan := do
  let s ← (← s.openBlockHere .blockMappingStart).dropKey
  pure ((s.allowKey (s.flow == 0)).goTo s.cursor.step |>.emit .key)

/-- The mark of a value. If a key may have begun before, it did. -/
def readValue (s : Scan) : Except Fault Scan := do
  let s ← match s.keys.find? (·.level == s.flow) with
    | some k =>
      let s := { s with keys := s.keys.filter (·.level != s.flow) }.emitAt k.number .key
      let s := if s.flow == 0 then s.openBlock k.column k.number .blockMappingStart else s
      pure (s.allowKey false)
    | none => do
      let s ← s.openBlockHere .blockMappingStart
      (s.allowKey (s.flow == 0)).dropKey
  pure (s.goTo s.cursor.step |>.emit .value)

/-- The name of something anchored. -/
def readNamed (s : Scan) (t : String → Token) : Except Fault Scan := do
  let s ← s.saveKey
  let (name, c) ← readAnchor s.cursor
  pure ((s.allowKey false).goTo c |>.emit (t name))

/-- A tag in front of something. -/
def readTagged (s : Scan) : Except Fault Scan := do
  let s ← s.saveKey
  let (t, c) ← readTag s.cursor
  pure ((s.allowKey false).goTo c |>.emit t)

/-- A block scalar, after which a key may begin. -/
def readBlockScalar (s : Scan) (folded : Bool) : Except Fault Scan := do
  let s ← (s.allowKey true).dropKey
  let (text, c) ← readBlock folded s.indent s.cursor
  pure (s.goTo c |>.emit (.scalar text false))

/-- A quoted scalar. -/
def readQuotedScalar (s : Scan) (double : Bool) : Except Fault Scan := do
  let s ← s.saveKey
  let (text, c) ← readQuoted double s.cursor
  pure ((s.allowKey false).goTo c |>.emit (.scalar text false))

/-- A plain scalar. If a line ended after it, a key may begin. -/
def readPlainScalar (s : Scan) : Except Fault Scan := do
  let s ← s.saveKey
  let (text, lineEnded, c) := readPlain (s.flow != 0) (s.indent + 1) s.cursor
  pure ((s.allowKey lineEnded).goTo c |>.emit (.scalar text true))

/-! ## The next token -/

/-- The blanks, comments and line breaks before the next token. In a block, a key may begin on a new
line. -/
def skipBlanks (fuel : Nat) (s : Scan) : Scan :=
  match fuel with
  | 0 => s
  | fuel + 1 =>
    let c := (s.cursor.skip (· == ' ')).skipComment
    if isBreak c.peek then
      skipBlanks fuel ((s.goTo c.lineBreak.2).allowKey (s.keyAllowed || s.flow == 0))
    else s.goTo c

/-- A byte order mark at the very beginning is passed. -/
def skipOrderMark (s : Scan) : Scan :=
  if s.cursor.index == 0 && s.cursor.peek == '\ufeff' then s.goTo s.cursor.step else s

/-- Whether a plain scalar begins at a place. -/
def plainBegins (s : Scan) : Bool :=
  let x := s.cursor.peek
  let marks := ['-', '?', ':', ',', '[', ']', '\x7b', '\x7d', '#', '&', '*', '!', '|', '>',
    '\'', '"', '%', '@', '\x60']
  (!isBlankOrEnd x && !marks.contains x) ||
    (!isBlankOrEnd (s.cursor.peekAt 1) && (x == '-' || (s.flow == 0 && (x == '?' || x == ':'))))

/-- Whether the mark at a place stands apart from what follows. -/
def standsApart (s : Scan) : Bool := isBlankOrEnd (s.cursor.peekAt 1)

/-- Reads the token that begins at a place; nothing is left if it is the last one. -/
def readToken (s : Scan) : Except Fault (Bool × Scan) :=
  let c := s.cursor
  let x := c.peek
  if x == endMark then s.readEnd.map (true, ·)
  else (false, ·) <$>
    if x == '%' && c.column == 0 then s.readDeclaration
    else if x == '-' && c.column == 0 && c.atDocumentMark then s.readDocumentMark .documentStart
    else if x == '.' && c.column == 0 && c.atDocumentMark then s.readDocumentMark .documentEnd
    else if x == '[' then s.readFlowStart .flowSequenceStart
    else if x == '\x7b' then s.readFlowStart .flowMappingStart
    else if x == ']' then s.readFlowEnd .flowSequenceEnd
    else if x == '\x7d' then s.readFlowEnd .flowMappingEnd
    else if x == ',' then s.readFlowEntry
    else if x == '-' && s.standsApart then s.readBlockEntry
    else if x == '?' && (s.flow != 0 || s.standsApart) then s.readKey
    else if x == ':' && (s.flow != 0 || s.standsApart) then s.readValue
    else if x == '*' then s.readNamed .reference
    else if x == '&' then s.readNamed .anchor
    else if x == '!' then s.readTagged
    else if x == '|' && s.flow == 0 then s.readBlockScalar false
    else if x == '>' && s.flow == 0 then s.readBlockScalar true
    else if x == '\'' then s.readQuotedScalar false
    else if x == '"' then s.readQuotedScalar true
    else if s.plainBegins then s.readPlainScalar
    else .error .malformed

/-- Reads the next token. -/
def step (s : Scan) : Except Fault (Bool × Scan) := do
  let s ← (skipBlanks (s.cursor.rest.length + 1) s.skipOrderMark).dropStale
  (s.unwind s.column).readToken

/-- The tokens that no key can be put in front of any more. A token with which a key may begin waits
for what follows it. -/
def settled (s : Scan) : List Token :=
  let waiting := (s.keys.filter fun k => !s.isStale k).map (·.number)
  s.tokens.reverse.take (waiting.foldl min s.tokens.length)

/-- Reads the tokens from a place on: as many as are settled, and the fault after them. -/
def run (fuel : Nat) (s : Scan) : List Token × Option Fault :=
  match fuel with
  | 0 => (s.settled, some .malformed)
  | fuel + 1 =>
    match s.step with
    | .error f => (s.settled, some f)
    | .ok (true, s) => (s.tokens.reverse, none)
    | .ok (false, s) => run fuel s

end Scan

/-- The tokens of a text, and the fault after them if the text has one. Each token takes a character
at least, so the fuel suffices. -/
def tokensOf (text : String) : List Token × Option Fault :=
  let cs := text.toList
  if cs.all isAllowed then (Scan.start cs).run (cs.length + 2) else ([], some .malformed)

end ConfigAssembly.Yaml
