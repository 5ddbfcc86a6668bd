import AuthoredStyle.Decimal.Numeral
import AuthoredStyle.Page.Basic

/-!
# Absolute paths of elements

A path names each element from the document element down by its tag and its
place among the siblings of that tag, counted from 1: `/html[1]/body[1]/div[2]`.
A step without a place means the first, tags are read in any case, and empty
steps are passed over.
-/

namespace AuthoredStyle.Page

structure Step where
  tag : String
  place : Nat
  deriving DecidableEq, Repr

def Step.text (s : Step) : String := s.tag ++ "[" ++ Nat.repr s.place ++ "]"

/-- The place of an element among the siblings of its tag. -/
def placeAmong (p : Page) (siblings : List Handle) (h : Handle) : Nat :=
  (siblings.takeWhile (· ≠ h)).countP (p.tag · = p.tag h) + 1

def stepOf (p : Page) (h : Handle) : Step :=
  match p.parent? h with
  | none => ⟨p.tag h, 1⟩
  | some a => ⟨p.tag h, p.placeAmong (p.children a) h⟩

def pathText (steps : List Step) : String := String.join (steps.map fun s => "/" ++ s.text)

/-- The path of an element. -/
def pathOf (p : Page) (h : Handle) : String :=
  pathText ((h :: p.ancestors h).reverse.map p.stepOf)

def step? (s : List Char) : Option Step :=
  match Text.cut? ['['] s with
  | some (tag, rest) => do
    let digits ← Text.dropEnding? [']'] rest
    return ⟨String.ofList (Text.lower tag), ← Decimal.word? digits⟩
  | none => some ⟨String.ofList (Text.lower s), 1⟩

/-- The child that a step names. -/
def childAt? (p : Page) (h : Handle) (s : Step) : Option Handle :=
  if s.place = 0 then none else ((p.children h).filter (p.tag · = s.tag))[s.place - 1]?

/-- The element that a path names. A malformed step behind one that names
nothing is never looked at; either way there is no element. -/
def resolve? (p : Page) (path : String) : Option Handle := do
  match ← (Text.runs (· = '/') path.toList).mapM step? with
  | [] => none
  | first :: steps =>
    let root ← p.root?
    if p.tag root = first.tag ∧ first.place = 1 then steps.foldlM p.childAt? root else none

end AuthoredStyle.Page
