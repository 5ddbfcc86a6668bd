import AuthoredStyle.NameSet
import AuthoredStyle.Text.Search

/-!
# Simplified selectors

A part of a selector asks for a tag, an id and classes; everything from an
opening bracket on is ignored, and a backslash takes the next character into a
name as it is. Of several tags or ids the last one counts, and `*` asks for
nothing. A selector is the list of its parts: child and descendant combinators
are not told apart.
-/

namespace AuthoredStyle.Selector

structure Part where
  tag : Option String := none
  id : Option String := none
  classes : NameSet := ∅
  deriving DecidableEq

inductive Kind where
  | tag
  | id
  | cls
  deriving DecidableEq, Repr

/-- The names in a part, each with what its mark says it is. The name being read
is held in `seen`, latest character first. -/
def names (kind : Kind) (seen : List Char) : List Char → List (Kind × List Char)
  | [] => [(kind, seen.reverse)]
  | ['\\'] => [(kind, seen.reverse)]
  | '\\' :: c :: s => names kind (c :: seen) s
  | '#' :: s => (kind, seen.reverse) :: names .id [] s
  | '.' :: s => (kind, seen.reverse) :: names .cls [] s
  | '[' :: _ => [(kind, seen.reverse)]
  | c :: s => names kind (c :: seen) s

namespace Part

def ask (p : Part) (name : Kind × List Char) : Part :=
  if name.2.isEmpty then p
  else
    match name.1 with
    | .id => { p with id := some (String.ofList name.2) }
    | .cls => { p with classes := p.classes.insert (String.ofList name.2) }
    | .tag =>
      if name.2 = ['*'] then p else { p with tag := some (String.ofList (Text.lower name.2)) }

def ofText (s : List Char) : Part := (names .tag [] s).foldl ask {}

end Part

def parts (selector : String) : List Part :=
  (Text.runs (fun c => c = '>' || Text.isBlank c) selector.toList).map Part.ofText

end AuthoredStyle.Selector
