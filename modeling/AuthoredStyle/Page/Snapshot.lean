import AuthoredStyle.Dict

/-!
# Snapshots of a page

A snapshot is what a host captured: a tree of elements, each with the computed
values it reported, and the page's stylesheets. A stylesheet is known by its
address or, when it stands in the page itself, by its text and the address
that its references are relative to.
-/

namespace AuthoredStyle.Page

inductive Stylesheet where
  | external (href : String)
  | inline (text baseUrl : String)
  deriving DecidableEq, Repr

structure ElementSnapshot where
  tag : String
  id : Option String := none
  classes : List String := []
  computed : Dict String := ∅
  children : List ElementSnapshot := []

structure Snapshot where
  document : ElementSnapshot
  stylesheets : List Stylesheet := []

mutual

def ElementSnapshot.size : ElementSnapshot → Nat
  | ⟨_, _, _, _, children⟩ => sizes children + 1

/-- The number of elements in all trees of a list. -/
def sizes : List ElementSnapshot → Nat
  | [] => 0
  | t :: ts => t.size + sizes ts

end

namespace ElementSnapshot

instance : Inhabited ElementSnapshot := ⟨{ tag := "" }⟩

/-- An element without anything but its tag. -/
def ofTag (tag : String) : ElementSnapshot := { tag := tag.map Char.toLower }

def withId (e : ElementSnapshot) (id : String) : ElementSnapshot := { e with id := some id }

def withClass (e : ElementSnapshot) (c : String) : ElementSnapshot :=
  { e with classes := e.classes ++ [c] }

def withStyle (e : ElementSnapshot) (property value : String) : ElementSnapshot :=
  { e with computed := e.computed.insert property value }

def withChild (e child : ElementSnapshot) : ElementSnapshot :=
  { e with children := e.children ++ [child] }

end ElementSnapshot

end AuthoredStyle.Page
