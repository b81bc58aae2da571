import ConfigAssembly.Text.Digit
import ConfigAssembly.Number.Numeral
import ConfigAssembly.Yaml.Fault
import ConfigAssembly.Yaml.Token

/-!
# Anchors, tags and directives

Reading of the tokens that say something about what follows them. Each reader starts at the mark of
its token.
-/

namespace ConfigAssembly.Yaml

open ConfigAssembly.Text

/-- A character of a name: an ASCII letter or digit, a hyphen or a low line. -/
def isNameChar (c : Char) : Bool :=
  isAsciiDigit c || ('A' ≤ c && c ≤ 'Z') || ('a' ≤ c && c ≤ 'z') || c == '-' || c == '_'

/-- Requires that the next character is of a kind. -/
def expect (p : Char → Bool) (c : Cursor) : Except Fault Unit :=
  if p c.peek then .ok () else .error .malformed

/-- A name, which holds at least one character. -/
def readName (c : Cursor) : Except Fault (String × Cursor) :=
  let name := c.run isNameChar
  if name.isEmpty then .error .malformed else .ok (String.ofList name, c.advance name.length)

/-! ## Anchors -/

/-- A character that may stand right after the name of an anchor. -/
def endsAnchor (c : Char) : Bool :=
  isBlankOrEnd c || ['?', ':', ',', ']', '\x7d', '%', '@', '\x60'].contains c

/-- The name of an anchor, or of what refers to one. -/
def readAnchor (c : Cursor) : Except Fault (String × Cursor) := do
  let (name, c) ← readName c.step
  expect endsAnchor c
  pure (name, c)

/-! ## Tags -/

/-- A character of the text of a tag. -/
def isTagChar (c : Char) : Bool := isNameChar c || ";/?:@&=+$,.!~*'()[]%".toList.contains c

/-- The bytes of a run of escapes, each a percent sign and two hexadecimal digits. -/
def escapedBytes : List Char → Except Fault (List UInt8)
  | '%' :: a :: b :: cs =>
    if isHexDigit a && isHexDigit b then
      (escapedBytes cs).map (UInt8.ofNat (digitsValue 16 [a, b]) :: ·)
    else .error .malformed
  | '%' :: _ => .error .malformed
  | _ => .ok []

/-- Characters encoded as bytes. -/
def decodeBytes (bs : List UInt8) : Except Fault (List Char) :=
  match String.fromUTF8? ⟨bs.toArray⟩ with
  | some s => .ok s.toList
  | none => .error .malformed

/-- The text of a tag from a place on, with its escapes replaced. -/
def tagChars (fuel : Nat) (c : Cursor) : Except Fault (List Char × Cursor) :=
  match fuel with
  | 0 => .ok ([], c)
  | fuel + 1 =>
    if c.peek == '%' then do
      let bs ← escapedBytes c.rest
      let cs ← decodeBytes bs
      let (rest, c) ← tagChars fuel (c.advance (3 * bs.length))
      pure (cs ++ rest, c)
    else if isTagChar c.peek then do
      let (rest, after) ← tagChars fuel c.step
      pure (c.peek :: rest, after)
    else .ok ([], c)

/-- The text of a tag, at least one character of it. -/
def readTagText (c : Cursor) : Except Fault (String × Cursor) :=
  if isTagChar c.peek then (tagChars c.rest.length c).map fun (cs, c) => (String.ofList cs, c)
  else .error .malformed

/-- The handle of a tag: an exclamation mark, or a name between two of them. -/
def readHandle (c : Cursor) : Except Fault (String × Cursor) :=
  if c.peek != '!' then .error .malformed
  else if c.peekAt 1 == ' ' then .ok ("!", c.step)
  else
    let name := c.step.run isNameChar
    if c.peekAt (1 + name.length) == '!' then
      .ok (String.ofList ('!' :: name ++ ['!']), c.advance (name.length + 2))
    else .error .malformed

/-- Whether the tag at a place has a handle with a name. -/
def hasNamedHandle (c : Cursor) : Bool := (c.step.run fun x => !isSpaceOrEnd x).contains '!'

/-- A tag. -/
def readTag (c : Cursor) : Except Fault (Token × Cursor) := do
  let (tag, c) ←
    if c.peekAt 1 == '<' then do
      let (rest, c) ← readTagText (c.advance 2)
      expect (· == '>') c
      pure (Token.tag none rest, c.step)
    else if isBlankOrEnd (c.peekAt 1) then pure (Token.tag none "!", c.step)
    else do
      let (handle, c) ← if hasNamedHandle c then readHandle c else pure ("!", c.step)
      let (rest, c) ← readTagText c
      pure (Token.tag (some handle) rest, c)
  expect isSpaceOrEnd c
  pure (tag, c)

/-! ## Directives -/

/-- A number of a version. -/
def readVersionNumber (c : Cursor) : Except Fault (Nat × Cursor) :=
  let ds := c.run isAsciiDigit
  if ds.isEmpty then .error .malformed
  else if Numeral.longestDecimal < ds.length then .error (.tooManyDigits ds.length)
  else .ok (digitsValue 10 ds, c.advance ds.length)

/-- The declaration of a version, after its name. -/
def readVersion (c : Cursor) : Except Fault (Directive × Cursor) := do
  let (major, c) ← readVersionNumber (c.skip (· == ' '))
  expect (· == '.') c
  let (_, c) ← readVersionNumber c.step
  expect isSpaceOrEnd c
  pure (.version major, c)

/-- The declaration of a handle, after its name. -/
def readHandleDeclaration (c : Cursor) : Except Fault (Directive × Cursor) := do
  let (handle, c) ← readHandle (c.skip (· == ' '))
  expect (· == ' ') c
  let (stem, c) ← readTagText (c.skip (· == ' '))
  expect isSpaceOrEnd c
  pure (.handle handle stem, c)

/-- A directive with its line. -/
def readDirective (c : Cursor) : Except Fault (Directive × Cursor) := do
  let (name, c) ← readName c.step
  expect isSpaceOrEnd c
  let (d, c) ← match name with
    | "YAML" => readVersion c
    | "TAG" => readHandleDeclaration c
    | _ => pure (.other, c.skip fun x => !isBreakOrEnd x)
  let c := (c.skip (· == ' ')).skipComment
  expect isBreakOrEnd c
  pure (d, c.lineBreak.2)

end ConfigAssembly.Yaml
