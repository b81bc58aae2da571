import ConfigAssembly.Text.Digit
import ConfigAssembly.Yaml.Fault
import ConfigAssembly.Yaml.Cursor

/-!
# Block scalars

A block scalar holds the indented lines below its header, as they are (`|`) or with lines joined
(`>`). The header may give the indentation and what becomes of the line breaks at the end: all are
kept (`+`), none (`-`), or one.
-/

namespace ConfigAssembly.Yaml

open ConfigAssembly.Text

/-- What becomes of the line breaks at the end of a block scalar. -/
inductive Chomping where
  | clip
  | strip
  | keep
  deriving DecidableEq, Repr

/-- The chomping that a mark asks for. -/
def chomping? (c : Char) : Option Chomping :=
  if c == '+' then some .keep else if c == '-' then some .strip else none

/-- An indentation given in a header, which is not zero. -/
def headerIndent (c : Cursor) : Except Fault (Option Nat × Cursor) :=
  if isAsciiDigit c.peek then
    if c.peek == '0' then .error .malformed else .ok (some (c.peek.toNat - 48), c.step)
  else .ok (none, c)

/-- The header of a block scalar after its mark: chomping and indentation, in either order. -/
def blockHeader (c : Cursor) : Except Fault (Chomping × Option Nat × Cursor) := do
  let (chomp, indent, c) ← match chomping? c.peek with
    | some chomp => do
      let (indent, c) ← headerIndent c.step
      pure (chomp, indent, c)
    | none => do
      let (indent, c) ← headerIndent c
      match indent, chomping? c.peek with
      | some _, some chomp => pure (chomp, indent, c.step)
      | _, _ => pure (.clip, indent, c)
  if isSpaceOrEnd c.peek then pure (chomp, indent, c) else .error .malformed

/-- The rest of the line of a header, which may hold a comment only. -/
def ignoredLine (c : Cursor) : Except Fault Cursor :=
  let c := (c.skip (· == ' ')).skipComment
  if isBreakOrEnd c.peek then .ok c.lineBreak.2 else .error .malformed

/-- The empty lines before the first line, and the widest indentation among them and of that
line. -/
def leadingLines (fuel : Nat) (breaks : List Char) (widest : Nat) (c : Cursor) :
    List Char × Nat × Cursor :=
  match fuel with
  | 0 => (breaks, widest, c)
  | fuel + 1 =>
    if c.peek == ' ' then
      let c := c.step
      leadingLines fuel breaks (max widest c.column) c
    else if isBreak c.peek then
      let (b, c) := c.lineBreak
      leadingLines fuel (breaks ++ b) widest c
    else (breaks, widest, c)

/-- Passes spaces up to a column. -/
def indentTo (indent : Nat) (c : Cursor) : Cursor :=
  c.advance (min (indent - c.column) (c.run (· == ' ')).length)

/-- The empty lines before the next line. -/
def blockBreaks (indent : Nat) (fuel : Nat) (breaks : List Char) (c : Cursor) :
    List Char × Cursor :=
  let c := indentTo indent c
  match fuel with
  | 0 => (breaks, c)
  | fuel + 1 =>
    if isBreak c.peek then
      let (b, c) := c.lineBreak
      blockBreaks indent fuel (breaks ++ b) c
    else (breaks, c)

/-- A blank at the beginning of a line. -/
def isIndented (c : Char) : Bool := c == ' ' || c == '\t'

/-- The lines of a block scalar, then its last line break and the empty lines after it. -/
def blockLines (folded : Bool) (indent : Nat) (fuel : Nat) (breaks : List Char) (c : Cursor) :
    List Char × List Char × List Char × Cursor :=
  match fuel with
  | 0 => ([], [], breaks, c)
  | fuel + 1 =>
    if c.column != indent || c.peek == endMark then ([], [], breaks, c)
    else
      let line := c.run fun x => !isBreakOrEnd x
      let flush := !isIndented c.peek
      let (b, c) := (c.advance line.length).lineBreak
      let (after, c) := blockBreaks indent c.rest.length [] c
      if c.column == indent && c.peek != endMark then
        let joint :=
          if folded && b == ['\n'] && flush && !isIndented c.peek then
            (if after.isEmpty then [' '] else [])
          else b
        let (rest, last, trailing, c) := blockLines folded indent fuel after c
        (breaks ++ line ++ joint ++ rest, last, trailing, c)
      else (breaks ++ line, b, after, c)

/-- A block scalar, read from its mark on; `parent` is the indentation of what it belongs to. -/
def readBlock (folded : Bool) (parent : Int) (c : Cursor) : Except Fault (String × Cursor) := do
  let (chomp, given, c) ← blockHeader c.step
  let c ← ignoredLine c
  let least := (max (parent + 1) 1).toNat
  let (breaks, indent, c) := match given with
    | none =>
      let (breaks, widest, c) := leadingLines c.rest.length [] 0 c
      (breaks, max least widest, c)
    | some n =>
      let indent := least + n - 1
      let (breaks, c) := blockBreaks indent c.rest.length [] c
      (breaks, indent, c)
  let (text, last, trailing, c) := blockLines folded indent (c.rest.length + 1) breaks c
  let ending := match chomp with
    | .strip => []
    | .clip => last
    | .keep => last ++ trailing
  pure (String.ofList (text ++ ending), c)

end ConfigAssembly.Yaml
