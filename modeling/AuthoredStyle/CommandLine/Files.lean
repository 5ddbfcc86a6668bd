import AuthoredStyle.Dict
import AuthoredStyle.SourceMap.Fetch

/-!
# Files

A program run looks at files by their paths and finds, for each, its text and
the place where it really is. Folders in memory answer the same questions: a
path is walked name by name, and every name before the last one has to be a
directory.
-/

namespace AuthoredStyle.CommandLine

/-- What is found under a path. -/
structure Finding where
  text : Except FetchFailure String
  /-- The path from the root, without links and dots; none if nothing is there. -/
  place : Option String

def Finding.nothing : Finding := ⟨.error .noSuchFile, none⟩

abbrev Files := String → Finding

/-! ## Folders in memory -/

/-- The texts of files by the names on their way from the folder's place, which
is itself given by the names on its way from the root. -/
structure Folder where
  place : List String
  files : List (List String × String)

namespace Folder

def namesOf (path : String) : List String :=
  (Text.fields (· = '/') path.toList).map String.ofList

/-- A folder from the relative paths of its files. -/
def ofTexts (place : List String) (texts : Dict String) : Folder where
  place := place
  files := texts.entries.map fun e => ((namesOf e.1).filter fun n => n ≠ "" && n ≠ ".", e.2)

def text? (f : Folder) (way : List String) : Option String :=
  (f.files.find? fun e => f.place ++ e.1 = way).map (·.2)

/-- Every start of a file's way is a directory, and so is the way to the folder. -/
def isDirectory (f : Folder) (way : List String) : Bool :=
  way.isPrefixOf f.place || f.files.any fun e =>
    way.isPrefixOf (f.place ++ e.1) && way.length < (f.place ++ e.1).length

/-- One step from a directory; a text is a dead end. -/
def step? (f : Folder) (way : List String) (name : String) : Option (List String) :=
  if !f.isDirectory way then none
  else if name = "" || name = "." then some way
  else if name = ".." then some way.dropLast
  else
    let next := way ++ [name]
    if f.isDirectory next || (f.text? next).isSome then some next else none

/-- The way to what a path names, if there is anything. -/
def walk? (f : Folder) (path : String) : Option (List String) :=
  match namesOf path with
  | [""] => none
  | "" :: names => names.foldlM f.step? []
  | names => names.foldlM f.step? f.place

def find (f : Folder) : Files := fun path =>
  match f.walk? path with
  | none => .nothing
  | some way =>
    let text := match f.text? way with
      | some t => .ok t
      | none => .error .unreadable
    ⟨text, some ("/" ++ "/".intercalate way)⟩

end Folder

end AuthoredStyle.CommandLine
