import AuthoredStyle.Cascade.Selector
import AuthoredStyle.Dom.Tree

/-!
# Matching cascade selectors

The key compound must hold of the element itself. From there each compound to the
left moves to the nearest place that its combinator allows and that it holds of;
no other choice is tried again.
-/

namespace AuthoredStyle.Cascade

open Dom (Element Place)

def Comparison.holds (how : Comparison) (actual expected : String) : Bool :=
  let a := actual.toList
  let e := expected.toList
  match how with
  | exact => actual = expected
  | includes => (Text.words a).contains e
  | startsWith => Text.hasLead e a
  | endsWith => (Text.dropEnding? e a).isSome
  | substring => Text.holds e a
  | dashMatch => actual = expected || Text.hasLead (e ++ ['-']) a

def AttributeTest.holdsOf (test : AttributeTest) (e : Element) : Bool :=
  match e.attr? test.name, test.value with
  | none, _ => false
  | some _, none => true
  | some actual, some (how, expected) => how.holds actual expected

def Compound.holdsOf (c : Compound) (e : Element) : Bool :=
  c.tag.all (fun t => e.tag = Element.lowered t) &&
    c.id.all (fun i => e.id? = some i) &&
    c.classes.toList.all e.hasClass &&
    c.attributes.all (·.holdsOf e)

/-- The places that a combinator allows, nearest first. -/
def Combinator.places (how : Combinator) (p : Place) : List Place :=
  match how with
  | child => p.parent?.toList
  | descendant => p.ancestors
  | adjacent => p.previousSiblings.take 1
  | sibling => p.previousSiblings

def holdsLeft : List (Combinator × Compound) → Place → Bool
  | [], _ => true
  | (how, compound) :: left, p =>
    match (how.places p).find? fun q => compound.holdsOf q.element with
    | some q => holdsLeft left q
    | none => false

def Complex.holdsAt (s : Complex) (p : Place) : Bool :=
  s.key.holdsOf p.element && holdsLeft s.left p

end AuthoredStyle.Cascade
