import ConfigAssembly.Yaml.Cursor

/-!
# Plain scalars

A plain scalar has no marks around it. It ends before a colon or a comment that stands apart, in a
flow also before a mark of the flow, and at a line that is not indented enough. Lines are joined: a
single line break becomes a space, and each further one a line break.
-/

namespace ConfigAssembly.Yaml

/-- The characters of a plain scalar up to the next blank or to its end. -/
def plainRun (inFlow : Bool) : List Char → List Char
  | [] => []
  | c :: cs =>
    let next := cs.headD endMark
    if isBlankOrEnd c ||
        (c == ':' && (isBlankOrEnd next ||
          (inFlow && [',', '[', ']', '\x7b', '\x7d'].contains next))) ||
        (inFlow && [',', '?', '[', ']', '\x7b', '\x7d'].contains c) then []
    else c :: plainRun inFlow cs

/-- The line breaks and indentation that follow a line. Nothing is found where a document is marked
to begin or end. -/
def plainBreaks (fuel : Nat) (breaks : List Char) (c : Cursor) : Option (List Char) × Cursor :=
  match fuel with
  | 0 => (some breaks, c)
  | fuel + 1 =>
    if c.peek == ' ' then plainBreaks fuel breaks c.step
    else if isBreak c.peek then
      let (b, c) := c.lineBreak
      if c.atDocumentMark then (none, c) else plainBreaks fuel (breaks ++ b) c
    else (some breaks, c)

/-- How lines are joined at a line break and the breaks after it. -/
def joined (lineBreak breaks : List Char) : List Char :=
  (if lineBreak != ['\n'] then lineBreak else if breaks.isEmpty then [' '] else []) ++ breaks

/-- What separates two parts of a plain scalar: spaces, or line breaks; the flag tells that a line
ended. Nothing is found if the scalar cannot go on. -/
def plainSpaces (c : Cursor) : List Char × Bool × Cursor :=
  let spaces := c.run (· == ' ')
  let c := c.skip (· == ' ')
  if isBreak c.peek then
    let (b, c) := c.lineBreak
    if c.atDocumentMark then ([], true, c)
    else match plainBreaks c.rest.length [] c with
      | (none, c) => ([], true, c)
      | (some breaks, c) => (joined b breaks, true, c)
  else (spaces, false, c)

/-- The parts of a plain scalar from a place on, each with what separates it from the one before;
the flag tells that a line ended after the last part. -/
def plainParts (inFlow : Bool) (indent : Int) (fuel : Nat) (spaces : List Char) (lineEnded : Bool)
    (c : Cursor) :
    List Char × Bool × Cursor :=
  match fuel with
  | 0 => ([], lineEnded, c)
  | fuel + 1 =>
    let part := if c.peek == '#' then [] else plainRun inFlow c.rest
    if part.isEmpty then ([], lineEnded, c)
    else
      let (next, ended, after) := plainSpaces (c.advance part.length)
      if next.isEmpty || after.peek == '#' || (!inFlow && (after.column : Int) < indent) then
        (spaces ++ part, ended, after)
      else
        let (rest, ended, after) := plainParts inFlow indent fuel next ended after
        (spaces ++ part ++ rest, ended, after)

/-- A plain scalar. The flag tells that a line ended after it. -/
def readPlain (inFlow : Bool) (indent : Int) (c : Cursor) : String × Bool × Cursor :=
  let (cs, ended, c) := plainParts inFlow indent (c.rest.length + 1) [] false c
  (String.ofList cs, ended, c)

end ConfigAssembly.Yaml
