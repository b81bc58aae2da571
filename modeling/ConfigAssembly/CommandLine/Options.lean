import ConfigAssembly.Assoc
import ConfigAssembly.Text.Blank
import ConfigAssembly.Text.Digit

/-!
# Options of the command line

An option is a word that begins with a hyphen. The value of an option is the next word, or it
follows the option in the same word: after an equals sign, or right after a letter. Long names may
be shortened as long as only one option is meant, and letters of options without a value may be
written together. `Invocation.parse` reads the words in two passes, as a word that could mean
several options is refused wherever it stands, before any option takes effect.

`parseOverrides` reads the properties that are given on the command line, each as a key and a value
with an equals sign between them. Of two values for one key the later counts.
-/

namespace ConfigAssembly.CommandLine

open ConfigAssembly.Text

/-- An option. -/
inductive Flag where
  | help
  | version
  /-- The file to build. -/
  | config
  /-- A module of plugins. -/
  | module
  /-- A property. -/
  | override
  /-- The threshold of the log. -/
  | logLevel
  /-- Errors make the run fail. -/
  | strict
  deriving DecidableEq, Repr

/-- Whether an option has a value. -/
def Flag.takesValue : Flag → Bool
  | .config | .module | .override | .logLevel => true
  | .help | .version | .strict => false

/-- The names of the options. -/
def flagNames : List (String × Flag) := [
  ("-h", .help), ("--help", .help), ("--version", .version), ("-v", .version),
  ("-c", .config), ("--config", .config), ("-m", .module), ("--module", .module),
  ("--set", .override), ("--log-level", .logLevel), ("--strict", .strict)]

/-- The thresholds that can be chosen. -/
def logLevels : List String := ["debug", "info", "warning", "error"]

/-! ## Words -/

/-- What a word is. -/
inductive Word where
  /-- An option, perhaps with something attached to it. -/
  | option (f : Flag) (long : Bool) (attached : Option (List Char))
  /-- Something that looks like an option and is none. -/
  | unknown
  /-- Something else, which may be a value. -/
  | plain
  /-- The mark after which no options come. -/
  | mark

/-- A negative number in decimal. -/
def isNegativeNumber (cs : List Char) : Bool :=
  let digit := fun c => (decimalValue? c).isSome
  let cs := if cs.getLast? == some '\n' then cs.dropLast else cs
  match cs with
  | '-' :: rest =>
    match rest.dropWhile digit with
    | [] => !rest.isEmpty
    | '.' :: ds => !ds.isEmpty && ds.all digit
    | _ => false
  | _ => false

/-- The part of a word before an equals sign, and the value after it, if it has one. -/
def splitValue (cs : List Char) : List Char × Option (List Char) :=
  (cs.takeWhile (· != '='), if cs.contains '=' then some (cs.dropWhile (· != '=')).tail else none)

/-- Whether a word begins with two hyphens. -/
def isLong (cs : List Char) : Bool := ['-', '-'].isPrefixOf cs

/-- What a word that names no option in full may stand for: long options that begin with it, or an
option of a letter followed by its value. -/
def candidates (cs : List Char) : List Word :=
  if isLong cs then
    let (stem, attached) := splitValue cs
    (flagNames.filter fun (name, _) => stem.isPrefixOf name.toList).map fun (_, f) =>
      .option f true attached
  else (flagNames.filter fun (name, _) => name.toList == cs.take 2).map fun (_, f) =>
    .option f false (some (cs.drop 2))

/-- What a word that names no option is: a value if it is a negative number or holds a space. -/
def otherWord (cs : List Char) : Word :=
  if isNegativeNumber cs || cs.contains ' ' then .plain else .unknown

/-- What a word is; nothing if it could mean several options. -/
def classify (s : String) : Option Word :=
  let cs := s.toList
  let (stem, attached) := splitValue cs
  if cs.head? != some '-' then some .plain
  else
    match flagNames.lookup s with
    | some f => some (.option f (isLong cs) none)
    | none =>
      if cs.length == 1 then some .plain
      else
        match attached, flagNames.lookup (String.ofList stem) with
        | some a, some f => some (.option f (isLong stem) (some a))
        | _, _ =>
          match candidates cs with
          | [] => some (otherWord cs)
          | [w] => some w
          | _ => none

/-- The word after which no options come. -/
def markWord : String := "--"

/-- The words of a command line with what they are; nothing if one of them could mean several
options. -/
def classifyAll : List String → Option (List (String × Word))
  | [] => some []
  | s :: ss =>
    if s == markWord then some ((s, .mark) :: ss.map (·, .plain))
    else do
      let w ← classify s
      let ws ← classifyAll ss
      some ((s, w) :: ws)

/-! ## Invocations -/

/-- The value given to an option. That word is no value, so an option to which it is attached has
none. -/
abbrev Given := Option String

/-- The value that a text gives. -/
def Given.ofText (s : String) : Given := if s == markWord then none else some s

/-- What a command line asks for. -/
structure Invocation where
  config : Option Given
  modules : List Given
  overrides : List Given
  logLevel : Given
  strict : Bool
  /-- Whether there are words that mean nothing. -/
  surplus : Bool

/-- What a command line comes to. -/
inductive Request where
  | help
  | version
  /-- The command line cannot be understood. -/
  | misuse
  | run (config : Given) (i : Invocation)

/-- What an option does: it ends the reading of the command line, or notes something. -/
def Flag.apply (f : Flag) (value : Given) (i : Invocation) : Except Request Invocation :=
  match f with
  | .help => .error .help
  | .version => .error .version
  | .config => .ok { i with config := some value }
  | .module => .ok { i with modules := i.modules ++ [value] }
  | .override => .ok { i with overrides := i.overrides ++ [value] }
  | .logLevel =>
    if value.all logLevels.contains then .ok { i with logLevel := value } else .error .misuse
  | .strict => .ok { i with strict := true }

/-- What one word of options stands for. -/
structure Cluster where
  /-- The options with their values. -/
  options : List (Flag × Given)
  /-- Whether the last option takes the next word as its value. -/
  usesNext : Bool

/-- The options of a word. What is attached to a letter of an option without a value are letters of
further options. `next` is the word that follows, if it may be a value. -/
def cluster (next : Option String) (fuel : Nat) (f : Flag) (long : Bool)
    (attached : Option (List Char)) : Option Cluster :=
  match fuel with
  | 0 => none
  | fuel + 1 =>
    match attached with
    | none =>
      if f.takesValue then next.map fun value => ⟨[(f, some value)], true⟩
      else some ⟨[(f, none)], false⟩
    | some cs =>
      if f.takesValue then some ⟨[(f, .ofText (String.ofList cs))], false⟩
      else if long then none
      else
        match cs with
        | [] => none
        | c :: cs =>
          match flagNames.lookup (String.ofList ['-', c]) with
          | none => none
          | some g =>
            (cluster next fuel g false (if cs.isEmpty then none else some cs)).map fun k =>
              { k with options := (f, none) :: k.options }

/-- The word that comes next, if it may be a value. -/
def nextValue : List (String × Word) → Option String
  | (s, .plain) :: _ => some s
  | _ => none

/-- Reads words one after the other. -/
def readWords : List (String × Word) → Invocation → Except Request Invocation
  | [], i => .ok i
  | (s, w) :: ws, i =>
    match w with
    | .option f long attached =>
      match cluster (nextValue ws) (s.length + 1) f long attached with
      | none => .error .misuse
      | some k =>
        match k.options.foldlM (fun i (f, value) => f.apply value i) i with
        | .error r => .error r
        | .ok i =>
          match ws with
          | [] => .ok i
          | w :: ws => if k.usesNext then readWords ws i else readWords (w :: ws) i
    | _ => readWords ws { i with surplus := true }

/-- What a command line comes to. Words that mean nothing and the lack of a file are noticed at the
end. -/
def Invocation.parse (argv : List String) : Request :=
  match classifyAll argv with
  | none => .misuse
  | some ws =>
    match readWords ws ⟨none, [], [], some "info", false, false⟩ with
    | .error r => r
    | .ok i =>
      match i.config with
      | none => .misuse
      | some config => if i.surplus then .misuse else .run config i

/-! ### Overrides -/

/-- An override without an equals sign. -/
structure OverrideError where
  text : String
  deriving DecidableEq, Repr

/-- What is wrong, in words. -/
def OverrideError.message (e : OverrideError) : String :=
  "Invalid --set format: '" ++ e.text ++ "'. Expected format: 'key=value'"

/-- The key and the value of an override, without blanks around them. The first equals sign
separates. -/
def parseOverride (s : String) : Except OverrideError (String × String) :=
  let cs := s.toList
  if cs.contains '=' then
    .ok (String.ofList (trimBy isBlank (cs.takeWhile (· != '='))),
      String.ofList (trimBy isBlank ((cs.dropWhile (· != '=')).tail)))
  else .error ⟨s⟩

/-- The properties that overrides give. -/
def parseOverrides (overrides : List String) : Except OverrideError (Assoc String String) :=
  (overrides.mapM parseOverride).map Assoc.ofList

end ConfigAssembly.CommandLine
