import AuthoredStyle.NameSet
import AuthoredStyle.Property.Table
import AuthoredStyle.Text.Search

/-!
# Properties that a preprocessor source declares

A declaration is taken to be one line, indented by two spaces or a tab, of the
form `name: value` with a plain name and a value that opens no block. Names that
are not worth extracting are left out; that covers directives too.
-/

namespace AuthoredStyle.SourceMap

def isIndented : List Char → Bool
  | ' ' :: ' ' :: _ => true
  | '\t' :: _ => true
  | _ => false

def isNameStart (c : Char) : Bool := c.isAlpha || c = '-'

def isNameChar (c : Char) : Bool := c.isAlphanum || c = '-'

/-- Words that look like property names but direct the preprocessor. -/
def directives : List String :=
  ["if", "else", "for", "each", "while", "include", "extend", "import", "use", "forward", "mixin",
   "function", "return", "warn", "error", "debug"]

def declaredName? (line : List Char) : Option String :=
  if !isIndented line then none
  else
    match Text.cut? [':'] (Text.trim line) with
    | none => none
    | some (name, value) =>
      let name := Text.trim name
      let value := Text.trim value
      let said := String.ofList (Text.lower name)
      let isName := name.head?.any isNameStart && name.all isNameChar
      let isValue := !value.isEmpty && value.getLast? ≠ some '\x7b'
      if isName && isValue && !directives.contains said && Property.isImportant said then some said
      else none

def authoredProperties (source : String) : NameSet :=
  .ofList ((Text.fields (· = '\n') source.toList).filterMap declaredName?)

end AuthoredStyle.SourceMap
