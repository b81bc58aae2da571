import ConfigAssembly.Text.Code
import ConfigAssembly.Text.Digit
import ConfigAssembly.Yaml.Fault
import ConfigAssembly.Yaml.Scalar.Plain

/-!
# Quoted scalars

A scalar between apostrophes holds everything but an apostrophe as it is; an apostrophe is written
twice. A scalar between double quotation marks may hold escapes. Lines are joined as in plain
scalars.
-/

namespace ConfigAssembly.Yaml

open ConfigAssembly.Text

/-- The characters that escapes by a letter or mark stand for. -/
def escapes : List (Char × Char) := [
  ('0', '\x00'), ('a', '\x07'), ('b', '\x08'), ('t', '\t'), ('\t', '\t'), ('n', '\n'),
  ('v', '\x0b'), ('f', '\x0c'), ('r', '\r'), ('e', '\x1b'), (' ', ' '), ('"', '"'),
  ('\\', '\\'), ('/', '/'), ('N', '\x85'), ('_', '\xa0'), ('L', '\u2028'), ('P', '\u2029')]

/-- The number of digits after an escape by a code. -/
def escapeWidth? (c : Char) : Option Nat :=
  if c == 'x' then some 2 else if c == 'u' then some 4 else if c == 'U' then some 8 else none

/-- The line breaks and blanks after a line of a quoted scalar. No document may be marked to begin
or end there. -/
def quotedBreaks (fuel : Nat) (breaks : List Char) (c : Cursor) :
    Except Fault (List Char × Cursor) :=
  match fuel with
  | 0 => .ok (breaks, c)
  | fuel + 1 =>
    if c.atDocumentMark then .error .malformed
    else
      let c := c.skip fun x => x == ' ' || x == '\t'
      if isBreak c.peek then
        let (b, c) := c.lineBreak
        quotedBreaks fuel (breaks ++ b) c
      else .ok (breaks, c)

/-- The blanks or line breaks inside a quoted scalar. -/
def quotedSpaces (c : Cursor) : Except Fault (List Char × Cursor) :=
  let blank := fun x => x == ' ' || x == '\t'
  let spaces := c.run blank
  let c := c.skip blank
  if c.peek == endMark then .error .malformed
  else if isBreak c.peek then
    let (b, c) := c.lineBreak
    (quotedBreaks (c.rest.length + 1) [] c).map fun (breaks, c) => (joined b breaks, c)
  else .ok (spaces, c)

/-- What stands for a code. -/
def characterOf (code : Nat) : Except Fault (List Char) :=
  if isCode code then .ok (ofCode code)
  else if code ≤ 0x7fffffff then .error .noCharacter else .error .hugeCharacter

/-- What an escape stands for. -/
def readEscape (c : Cursor) : Except Fault (List Char × Cursor) :=
  match escapes.lookup c.peek with
  | some x => .ok ([x], c.step)
  | none =>
    match escapeWidth? c.peek with
    | some width =>
      let c := c.step
      let ds := c.rest.take width
      if ds.length == width && ds.all isHexDigit then
        (characterOf (digitsValue 16 ds)).map fun cs => (cs, c.advance width)
      else .error .malformed
    | none =>
      if isBreak c.peek then
        let (_, c) := c.lineBreak
        quotedBreaks (c.rest.length + 1) [] c
      else .error .malformed

/-- The characters of a quoted scalar up to its closing mark. -/
def quotedParts (double : Bool) (fuel : Nat) (c : Cursor) : Except Fault (List Char × Cursor) :=
  match fuel with
  | 0 => .error .malformed
  | fuel + 1 =>
    let go := fun (cs : List Char) (c : Cursor) =>
      (quotedParts double fuel c).map fun (rest, c) => (cs ++ rest, c)
    let x := c.peek
    if double && x == '"' then .ok ([], c.step)
    else if !double && x == '\'' then
      (if c.peekAt 1 == '\'' then go ['\''] (c.advance 2) else .ok ([], c.step))
    else if double && x == '\\' then do
      let (cs, c) ← readEscape c.step
      go cs c
    else if isBlankOrEnd x then do
      let (cs, c) ← quotedSpaces c
      go cs c
    else go [x] c.step

/-- A quoted scalar, read from its opening mark on. -/
def readQuoted (double : Bool) (c : Cursor) : Except Fault (String × Cursor) :=
  (quotedParts double (c.rest.length + 1) c.step).map fun (cs, c) => (String.ofList cs, c)

end ConfigAssembly.Yaml
