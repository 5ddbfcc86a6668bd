import AuthoredStyle.Property.Table
import AuthoredStyle.Text.Search

/-!
# Declarations of a block

A statement declares a property when it has a colon, a name that is worth
extracting and a value that is not blank. One trailing `!important` is dropped.
A font-size mixin call reads back as the pixel size it was given. A property
declared twice keeps its first place and its last value.
-/

namespace AuthoredStyle.Sheet

abbrev Declarations := List (String × String)

def importantMark : List Char := "!important".toList

def fontSizeCall : List Char := "@include font-size(".toList

/-- A value without its trailing importance mark. -/
def plainValue (value : List Char) : List Char :=
  let said := Text.trim value
  Text.trim ((Text.dropEnding? importantMark said).getD said)

/-- The name and value that a statement writes, whether worth extracting or not. -/
def written? (statement : List Char) : Option (String × List Char) :=
  let said := Text.trim statement
  match Text.dropLead? fontSizeCall said with
  | some call =>
    (Text.dropEnding? [')'] call).map fun size => ("font-size", Text.trim size ++ ['p', 'x'])
  | none =>
    (Text.cut? [':'] said).map fun (name, value) =>
      (String.ofList (Text.lower (Text.trim name)), plainValue value)

def declaration? (statement : List Char) : Option (String × String) :=
  match written? statement with
  | some (name, value) =>
    if value.isEmpty || !Property.isImportant name then none else some (name, String.ofList value)
  | none => none

/-- The value in place of an earlier one of the property, or at the end. -/
def declare (name value : String) : Declarations → Declarations
  | [] => [(name, value)]
  | d :: ds => if d.1 = name then (name, value) :: ds else d :: declare name value ds

def declarations (statements : List (List Char)) : Declarations :=
  (statements.filterMap declaration?).foldl (fun ds d => declare d.1 d.2 ds) []

end AuthoredStyle.Sheet
