import AuthoredStyle.Text.Search

/-!
# Elements of a document

An element's name keeps its spelling; its tag is the name in lower case.
Attributes keep the order in which they were written, and are looked up without
regard to case. An empty id is no id.
-/

namespace AuthoredStyle.Dom

inductive Namespace where
  | html
  | svg
  | mathml
  deriving DecidableEq, Repr

structure Element where
  space : Namespace := .html
  name : String
  attributes : List (String × String) := []
  deriving DecidableEq, Repr

namespace Element

instance : Inhabited Element := ⟨{ name := "" }⟩

def lowered (s : String) : String := String.ofList (Text.lower s.toList)

def tag (e : Element) : String := lowered e.name

/-- The first attribute of a name, in any case. -/
def attr? (e : Element) (name : String) : Option String :=
  (e.attributes.find? fun a => lowered a.1 = lowered name).map (·.2)

def id? (e : Element) : Option String := (e.attr? "id").filter (· ≠ "")

def classes (e : Element) : List String :=
  match e.attr? "class" with
  | some s => (Text.words s.toList).map String.ofList
  | none => []

def hasClass (e : Element) (c : String) : Bool := e.classes.contains c

end Element

end AuthoredStyle.Dom
