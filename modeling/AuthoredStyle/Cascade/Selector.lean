import AuthoredStyle.NameSet
import AuthoredStyle.Text.Letter
import AuthoredStyle.Text.Search

/-!
# Selectors of the cascade

A complex selector is a key compound and the compounds to its left, nearest
first, each with the combinator that ties it to its right neighbour. Combinators
are words of their own between blanks; a combinator in front of the first
compound is kept for the next gap, and the last of several in a gap counts.

A compound asks for a tag, an id, classes and attributes. Of repeated ids the
last counts, and a repeated class counts once.
-/

namespace AuthoredStyle.Cascade

inductive Comparison where
  | exact
  | includes
  | startsWith
  | endsWith
  | substring
  | dashMatch
  deriving DecidableEq, Repr

structure AttributeTest where
  name : String
  /-- How to compare with which value; presence alone when there is none. -/
  value : Option (Comparison × String)
  deriving DecidableEq, Repr

structure Compound where
  tag : Option String := none
  id : Option String := none
  classes : NameSet := ∅
  attributes : List AttributeTest := []
  deriving DecidableEq

inductive Combinator where
  | descendant
  | child
  | adjacent
  | sibling
  deriving DecidableEq, Repr

structure Complex where
  key : Compound
  /-- Nearest first. -/
  left : List (Combinator × Compound) := []
  deriving DecidableEq

/-! ## Compounds -/

def isMark (c : Char) : Bool := c = '#' || c = '.' || c = '['

def comparisonMarks : List (Char × Comparison) :=
  [('~', .includes), ('^', .startsWith), ('$', .endsWith), ('*', .substring), ('|', .dashMatch)]

def isQuote (c : Char) : Bool := c = '"' || c = '\''

def unquote (s : List Char) : List Char :=
  ((s.dropWhile isQuote).reverse.dropWhile isQuote).reverse

/-- The text in front of an equals sign, without the mark that may precede it. -/
def comparison (left : List Char) : List Char × Comparison :=
  match left.getLast?.bind fun c => List.lookup c comparisonMarks with
  | some c => (left.dropLast, c)
  | none => (left, .exact)

/-- The inside of an attribute's brackets. -/
def attributeTest? (body : List Char) : Option AttributeTest :=
  match Text.cut? ['='] body with
  | none =>
    let name := Text.trim body
    if name.isEmpty then none else some ⟨String.ofList name, none⟩
  | some (left, value) =>
    let (name, how) := comparison left
    let name := Text.trim name
    if name.isEmpty then none
    else some ⟨String.ofList name, some (how, String.ofList (unquote (Text.trim value)))⟩

namespace Compound

def askId (c : Compound) (name : List Char) : Compound :=
  if name.isEmpty then c else { c with id := some (String.ofList name) }

def askClass (c : Compound) (name : List Char) : Compound :=
  if name.isEmpty then c else { c with classes := c.classes.insert (String.ofList name) }

def askAttribute (c : Compound) (body : List Char) : Compound :=
  match attributeTest? body with
  | some test => { c with attributes := c.attributes ++ [test] }
  | none => c

/-- The conditions behind the tag; text that belongs to none is passed over. -/
def conditions (c : Compound) : List Char → Compound
  | [] => c
  | '#' :: s => (c.askId (s.takeWhile (!isMark ·))).conditions (s.dropWhile (!isMark ·))
  | '.' :: s => (c.askClass (s.takeWhile (!isMark ·))).conditions (s.dropWhile (!isMark ·))
  | '[' :: s => (c.askAttribute (s.takeWhile (· ≠ ']'))).conditions ((s.dropWhile (· ≠ ']')).drop 1)
  | _ :: s => c.conditions s
termination_by s => s.length
decreasing_by
  · exact Nat.lt_succ_of_le (List.dropWhile_sublist _).length_le
  · exact Nat.lt_succ_of_le (List.dropWhile_sublist _).length_le
  · exact Nat.lt_succ_of_le
      (Nat.le_trans (List.drop_sublist _ _).length_le (List.dropWhile_sublist _).length_le)
  · exact Nat.lt_succ_self _

/-- A tag starts with a letter of any script or is a star, which asks for
nothing. -/
def ofText (s : List Char) : Compound :=
  if s.head?.any fun c => Text.isLetter c || c = '*' then
    let tag := s.takeWhile (!isMark ·)
    let start : Compound :=
      if tag = ['*'] then {} else { tag := some (String.ofList (Text.lower tag)) }
    start.conditions (s.dropWhile (!isMark ·))
  else conditions {} s

end Compound

/-! ## Complex selectors -/

def combinator? (word : List Char) : Option Combinator :=
  match word with
  | ['>'] => some .child
  | ['+'] => some .adjacent
  | ['~'] => some .sibling
  | _ => none

/-- The selector read so far and the combinator waiting for the next compound. -/
structure Progress where
  selector : Option Complex := none
  waiting : Option Combinator := none

def Progress.word (p : Progress) (word : List Char) : Progress :=
  match combinator? word with
  | some c => { p with waiting := some c }
  | none =>
    let compound := Compound.ofText word
    match p.selector with
    | none => { p with selector := some { key := compound } }
    | some s =>
      { selector := some ⟨compound, (p.waiting.getD .descendant, s.key) :: s.left⟩ }

def Complex.ofText? (selector : String) : Option Complex :=
  ((Text.words selector.toList).foldl Progress.word {}).selector

/-! ## Specificity -/

structure Specificity where
  ids : Nat
  classes : Nat
  tags : Nat
  deriving DecidableEq, Repr

namespace Specificity

def add (a b : Specificity) : Specificity := ⟨a.ids + b.ids, a.classes + b.classes, a.tags + b.tags⟩

def toList (s : Specificity) : List Nat := [s.ids, s.classes, s.tags]

end Specificity

def Compound.specificity (c : Compound) : Specificity where
  ids := if c.id.isSome then 1 else 0
  classes := c.classes.size + c.attributes.length
  tags := if c.tag.isSome then 1 else 0

def Complex.specificity (s : Complex) : Specificity :=
  s.left.foldl (fun total l => total.add l.2.specificity) s.key.specificity

end AuthoredStyle.Cascade
