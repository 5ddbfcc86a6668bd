import AuthoredStyle.Dom.Element

/-!
# Document trees and places in them

A tree holds its children. A place is an element together with everything that
a selector may look at: the element siblings before it, nearest first, and the
same for each ancestor from the parent up. A place so knows its own parent and
its preceding siblings as places.
-/

namespace AuthoredStyle.Dom

inductive Tree where
  | element (data : Element) (children : List Tree)
  | text (content : String)
  | comment (content : String)

instance : Inhabited Tree := ⟨.text ""⟩

mutual

/-- All text in a tree, in document order. -/
def Tree.textContent : Tree → String
  | .element _ children => textOf children
  | .text s => s
  | .comment _ => ""

def textOf : List Tree → String
  | [] => ""
  | t :: ts => t.textContent ++ textOf ts

end

def Tree.element? : Tree → Option Element
  | .element e _ => some e
  | _ => none

/-- An element and its element siblings before it, nearest first. -/
structure Level where
  element : Element
  before : List Element
  deriving DecidableEq

structure Place where
  level : Level
  /-- From the parent up. -/
  above : List Level
  deriving DecidableEq

namespace Place

def element (p : Place) : Element := p.level.element

def parent? (p : Place) : Option Place :=
  match p.above with
  | [] => none
  | l :: ls => some ⟨l, ls⟩

/-- The places of sibling elements, nearest first, each with what is before it. -/
def siblingsFrom (above : List Level) : List Element → List Place
  | [] => []
  | e :: before => ⟨⟨e, before⟩, above⟩ :: siblingsFrom above before

def previousSiblings (p : Place) : List Place := siblingsFrom p.above p.level.before

/-- The places of ancestors, nearest first. -/
def ancestorsFrom : List Level → List Place
  | [] => []
  | l :: ls => ⟨l, ls⟩ :: ancestorsFrom ls

def ancestors (p : Place) : List Place := ancestorsFrom p.above

end Place

mutual

/-- The place of a tree's root and of every element below it, in document order. -/
def Tree.placesUnder (above : List Level) (before : List Element) : Tree → List Place
  | .element e children =>
    ⟨⟨e, before⟩, above⟩ :: placesOf (⟨e, before⟩ :: above) [] children
  | .text _ => []
  | .comment _ => []

/-- The places in sibling trees behind some elements, nearest of them first. -/
def placesOf (above : List Level) (before : List Element) : List Tree → List Place
  | [] => []
  | .element e children :: ts =>
    Tree.placesUnder above before (.element e children) ++ placesOf above (e :: before) ts
  | _ :: ts => placesOf above before ts

end

/-- Every element of a document by its place, the root first. -/
def Tree.places (t : Tree) : List Place := t.placesUnder [] []

end AuthoredStyle.Dom
