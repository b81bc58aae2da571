import ConfigAssembly.Yaml.Cursor

/-!
# Tokens

What the text of documents is made of. Indentation shows in the tokens that open and close block
collections; a scalar is one token, as is an anchor or a tag in front of something.
-/

namespace ConfigAssembly.Yaml

/-- What a line that begins with a percent sign declares. -/
inductive Directive where
  /-- The version of the language, by its major number. -/
  | version (major : Nat)
  /-- What a handle of tags stands for. -/
  | handle (name stem : String)
  /-- Anything else, which has no meaning. -/
  | other
  deriving DecidableEq, Repr

/-- A token. -/
inductive Token where
  | directive (d : Directive)
  | documentStart
  | documentEnd
  | streamEnd
  | blockSequenceStart
  | blockMappingStart
  | blockEnd
  | flowSequenceStart
  | flowSequenceEnd
  | flowMappingStart
  | flowMappingEnd
  | flowEntry
  | blockEntry
  | key
  | value
  /-- Something anchored before. -/
  | reference (name : String)
  | anchor (name : String)
  /-- A tag: a handle, unless the tag is written out, and what follows it. -/
  | tag (handle : Option String) (rest : String)
  | scalar (text : String) (plain : Bool)
  deriving DecidableEq, Repr

end ConfigAssembly.Yaml
