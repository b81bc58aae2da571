import ConfigAssembly.Document.Elements
import ConfigAssembly.Document.Files
import ConfigAssembly.Yaml.Document

/-!
# Loading of documents

A document may include others by the names of their files, which are read from the directory of the
document on. A path that is being read cannot be included again, so loading ends: with every
inclusion there is one less of the full paths that are not being read. A file has two of them.
-/

namespace ConfigAssembly

/-- Why a document cannot be loaded. -/
inductive LoadError where
  /-- There is no file of a path, which a document may have asked for. -/
  | notFound (path : String) (asker : Option String)
  /-- Documents include each other; the paths lead from the first one to the one that comes
  again. -/
  | cycle (paths : List String)
  /-- A document is faulty in itself. -/
  | faulty (f : Yaml.Fault)
  /-- The content of a document is no tree of elements. -/
  | shape (source : String) (f : ShapeFault)
  deriving DecidableEq, Repr

/-- What is wrong, in words. -/
def LoadError.message : LoadError → String
  | .notFound path none => "Configuration file not found: " ++ path
  | .notFound path (some asker) =>
    "Configuration file not found: " ++ path ++ " (included from " ++ asker ++ ")"
  | .cycle paths => "Circular include detected: " ++ " -> ".intercalate paths
  | .faulty f => f.message
  | .shape _ (.sequenceAt element) => "Element " ++ element ++ " cannot be a list at this level"
  | .shape source .notOneRoot =>
    "The configuration in " ++ source ++ " must contain exactly one root element."
  | .shape _ .endless => "maximum recursion depth exceeded"
  | .shape _ .longInteger => Value.longIntegerMessage

/-- The content of a text in a directory; `reading` are the files that are being read, by their full
paths, outermost first. -/
def contentOfText (fs : Files) (reading : List FullPath) (directory : FullPath) (text : String) :
    Except LoadError Content :=
  let included := fun (name : String) =>
    let path := directory.resolve name
    if _new : reading.contains path then
      .error (.cycle ((reading ++ [path]).map FullPath.text))
    else
      match _found : fs.text? path with
      | none => .error (.notFound path.text (reading.getLast?.map FullPath.text))
      | some text => contentOfText fs (reading ++ [path]) path.directory text
  Yaml.readDocument ⟨included, .faulty⟩ text
termination_by (fs.unread reading).length
decreasing_by exact Files.length_unread_lt _new _found

/-- The root element of content. -/
def rootOfContent (source : String) (c : Content) : Except LoadError (LinkedTree String) :=
  (LinkedTree.ofDocument c).mapError (.shape source)

/-- How a text that is in no file is named. -/
def textSource : String := "<string>"

/-- Loads the elements of a text. -/
def loadText (fs : Files) (text : String) : Except LoadError (LinkedTree String) := do
  let c ← contentOfText fs [] fs.here text
  rootOfContent textSource c

/-- Loads the elements of a file. -/
def loadFile (fs : Files) (path : String) : Except LoadError (LinkedTree String) := do
  match fs.find? path with
  | none => throw (.notFound path none)
  | some main =>
    let c ← contentOfText fs [main] main.directory ((fs.text? main).getD "")
    rootOfContent path c

/-- The elements of a value. -/
def loadValue (name : String) (v : Value) : Except LoadError (LinkedTree String) :=
  (LinkedTree.ofContent name (.ofValue v)).mapError (.shape name)

end ConfigAssembly
