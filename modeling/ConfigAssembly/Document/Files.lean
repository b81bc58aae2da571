import ConfigAssembly.Assoc
import ConfigAssembly.Text.Blank

/-!
# Files

The files that documents are read from, with the paths that lead to them. A place in the file
system is the list of names from its root down. A full path goes to a place from the root on,
without detours; the root is written with one slash or with two, so every place has two full paths.
`FullPath.resolve` reads a path as it is written, from a directory on; `Files.find?` follows it
through directories that exist.
-/

namespace ConfigAssembly

open ConfigAssembly.Text

/-- A place in the file system: the names from the root down. -/
abbrev Place := List String

namespace Place

/-- Goes on by a name of a path; above the root is the root. -/
def goOn (place : Place) (name : String) : Place :=
  if name == "" || name == "." then place
  else if name == ".." then place.dropLast
  else place ++ [name]

end Place

/-- A path from the root on, without detours. -/
structure FullPath where
  /-- Whether the root is written with two slashes. -/
  doubled : Bool
  place : Place
  deriving DecidableEq, Repr

namespace FullPath

/-- The path as it is written. -/
def text (p : FullPath) : String :=
  (if p.doubled then "//" else "/") ++ "/".intercalate p.place

/-- The path of the directory that a path lies in. -/
def directory (p : FullPath) : FullPath := { p with place := p.place.dropLast }

/-- The names between the slashes of a path. -/
def names (path : String) : List String :=
  (pieces (· == '/') path.toList).map String.ofList

/-- Whether a path begins at the root. -/
def isAbsolute (path : String) : Bool := path.toList.head? == some '/'

/-- Whether a path begins at the root written with two slashes. More of them are read as one. -/
def isDoubled (path : String) : Bool :=
  match path.toList with
  | '/' :: '/' :: '/' :: _ => false
  | '/' :: '/' :: _ => true
  | _ => false

/-- The root as a path writes it, or a directory if the path does not begin at the root. -/
def start (directory : FullPath) (path : String) : FullPath :=
  if isAbsolute path then ⟨isDoubled path, []⟩ else directory

/-- The full path of a path, read from a directory on as it is written. -/
def resolve (directory : FullPath) (path : String) : FullPath :=
  let start := directory.start path
  { start with place := (names path).foldl Place.goOn start.place }

end FullPath

/-- The files that can be read. -/
structure Files where
  /-- The directory that paths are read from. -/
  current : Place
  texts : Assoc Place String
  /-- Directories that need not hold any of the files. -/
  directories : List Place

namespace Files

/-- The full path of the current directory. -/
def here (fs : Files) : FullPath := ⟨false, fs.current⟩

/-- The files with one more, or with another text at the place that a path leads to. -/
def write (fs : Files) (path text : String) : Files :=
  { fs with texts := fs.texts.insert (fs.here.resolve path).place text }

/-- Files by their paths, which are read from the current directory on. Of two files at one place
there is the later one. -/
def ofList (current : Place) (files : List (String × String)) : Files :=
  files.foldl (fun fs f => fs.write f.1 f.2) ⟨current, [], []⟩

/-- Whether a place is a directory: one that holds something, or one of those given. -/
def isDirectory (fs : Files) (place : Place) : Bool :=
  place.isPrefixOf fs.current || fs.directories.any (place.isPrefixOf ·) ||
    fs.texts.any fun f => place.isPrefixOf f.1 && place != f.1

/-- Follows the names of a path. Every name but the last must lead to a directory. -/
def follow (fs : Files) (place : Place) : List String → Option Place
  | [] => some place
  | name :: names => if fs.isDirectory place then fs.follow (place.goOn name) names else none

/-- The full path of the file that a path leads to. -/
def find? (fs : Files) (path : String) : Option FullPath :=
  let start := fs.here.start path
  match fs.follow start.place (FullPath.names path) with
  | some place => if fs.texts.has place then some { start with place } else none
  | none => none

/-- The files with one more, found at a path: the directories on the way to it exist. -/
def add (fs : Files) (path text : String) : Files :=
  let start := (fs.here.start path).place
  let passed := (FullPath.names path).dropLast.foldl
    (fun places name => Place.goOn (places.headD start) name :: places) [start]
  { fs.write path text with directories := passed ++ fs.directories }

/-- The text of the file that a full path leads to. -/
def text? (fs : Files) (p : FullPath) : Option String := fs.texts.get? p.place

/-- The full paths of all files. -/
def paths (fs : Files) : List FullPath :=
  fs.texts.keys.flatMap fun place => [⟨false, place⟩, ⟨true, place⟩]

/-- A full path that leads to a file is one of those of all files. -/
theorem mem_paths_of_text? {fs : Files} {p : FullPath} {text : String}
    (h : fs.text? p = some text) : p ∈ fs.paths := by
  refine List.mem_flatMap.2 ⟨p.place, Assoc.mem_keys_of_get? h, ?_⟩
  obtain ⟨doubled, place⟩ := p
  cases doubled <;> simp

/-- Every file has two full paths. -/
theorem length_paths (fs : Files) : fs.paths.length = 2 * fs.texts.length := by
  simp [paths, Assoc.keys, List.length_flatMap, Function.comp_def, List.map_const',
    Nat.mul_comm]

/-- The full paths of files that are not among some that are being read. -/
def unread (fs : Files) (reading : List FullPath) : List FullPath :=
  fs.paths.filter fun p => !reading.contains p

/-- Of the paths that are not being read there are less when one more is. -/
theorem length_unread_lt {fs : Files} {reading : List FullPath} {p : FullPath} {text : String}
    (hnot : ¬ reading.contains p = true) (h : fs.text? p = some text) :
    (fs.unread (reading ++ [p])).length < (fs.unread reading).length := by
  have hless : fs.unread (reading ++ [p]) = (fs.unread reading).filter (· != p) := by
    simp [unread, List.filter_filter, Bool.and_comm, bne, Bool.beq_eq_decide_eq]
  rw [hless, List.length_filter_lt_length_iff_exists]
  refine ⟨p, List.mem_filter.2 ⟨mem_paths_of_text? h, ?_⟩, by simp⟩
  simpa using hnot

end Files
end ConfigAssembly
