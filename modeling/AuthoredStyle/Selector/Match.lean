import AuthoredStyle.Page.Basic
import AuthoredStyle.Selector.Part

/-!
# Matching simplified selectors against a page

The last part must hold of the element itself, and the other parts are found
right to left on the way up. Ancestors in between are passed over, so `.a > .b`
also holds of a `.b` deeper under an `.a`.
-/

namespace AuthoredStyle.Selector

def Part.holdsOf (part : Part) (p : Page) (h : Page.Handle) : Bool :=
  part.tag.all (fun t => Text.lower (p.tag h).toList = Text.lower t.toList) &&
    part.id.all (fun i => p.id? h = some i) &&
    part.classes.toList.all (p.classes h).contains

/-- Parts, nearest first, are found in this order among elements going up; each
takes the first element that it holds of. -/
def foundAbove (p : Page) : List Part → List Page.Handle → Bool
  | [], _ => true
  | _ :: _, [] => false
  | part :: parts, h :: above =>
    if part.holdsOf p h then foundAbove p parts above else foundAbove p (part :: parts) above

/-- Nearest part first. -/
def holds (parts : List Part) (p : Page) (h : Page.Handle) : Bool :=
  match parts with
  | [] => false
  | last :: outer => last.holdsOf p h && foundAbove p outer (p.ancestors h)

def selects (selector : String) (p : Page) (h : Page.Handle) : Bool :=
  holds (parts selector).reverse p h

end AuthoredStyle.Selector
