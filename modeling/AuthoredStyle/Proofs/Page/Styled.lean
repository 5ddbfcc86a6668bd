import AuthoredStyle.Page.Static
import AuthoredStyle.Proofs.Page.Ancestry
import AuthoredStyle.Proofs.Page.Arena

/-!
# Pages of styled documents

A page that is made of a styled document numbers the places of the document in their order.
What it tells of an element is what the document says of it, and going up from a number meets
the elements that the place has above it, one for one.

Values and stylesheets play no part in this: which rules the document was styled by is left
open.
-/

namespace AuthoredStyle.Page

open Cascade (Rule)
open Dom (Level Place Tree)
open Static (styledOf styledUnder valuesAt)

/-- The page tells of an element what the document says. -/
structure Shows (p : Page) (h : Handle) (e : Dom.Element) : Prop where
  tag : p.tag h = e.tag
  id? : p.id? h = e.id?
  classList : p.classList h = e.classes

/-- Elements of the page are the ones of these levels, nearest first. -/
def ShowsAll (p : Page) : List Handle → List Level → Prop :=
  List.Forall₂ fun a level => p.Shows a level.element

/-- An element and its ancestors are those of a place. -/
structure StandsAt (p : Page) (h : Handle) (place : Place) : Prop where
  shows : p.Shows h place.element
  above : p.ShowsAll (p.ancestors h) place.above

theorem lowered_tag (e : Dom.Element) : String.ofList (Text.lower e.tag.toList) = e.tag := by
  rw [Dom.Element.tag, Dom.Element.lowered, String.toList_ofList, Text.lower_lower]

theorem Holds.shows {p : Page} {h : Handle} {parent : Option Handle} {e : Dom.Element}
    {values : Dict String} {children : List ElementSnapshot}
    (held : p.Holds h parent ⟨e.tag, e.id?, e.classes, values, children⟩) : p.Shows h e := by
  rw [Holds] at held
  obtain ⟨here, -⟩ := held
  exact ⟨by simp [tag, here, lowered_tag], by simp [id?, here], by simp [classList, here]⟩

section Sizes

variable [Libraries] (rules : List Rule)

mutual

/-- A styled tree has an element for each place. -/
theorem size_styledUnder (values : Option (Dict String)) (above : List Level)
    (before : List Dom.Element) :
    ∀ t : Tree, sizes (styledUnder rules values above before t).toList =
      (t.placesUnder above before).length
  | .text _ => rfl
  | .comment _ => rfl
  | .element e children => by
    rw [styledUnder, Tree.placesUnder, Option.toList_some, sizes, sizes, ElementSnapshot.size,
      sizes_styledOf, List.length_cons]

theorem sizes_styledOf (values : Option (Dict String)) (above : List Level)
    (before : List Dom.Element) :
    ∀ ts : List Tree, sizes (styledOf rules values above before ts) =
      (Dom.placesOf above before ts).length
  | [] => rfl
  | .text _ :: ts => by rw [styledOf, Dom.placesOf, sizes_styledOf] <;> simp
  | .comment _ :: ts => by rw [styledOf, Dom.placesOf, sizes_styledOf] <;> simp
  | .element e children :: ts => by
    have first := size_styledUnder values above before (.element e children)
    have others := sizes_styledOf values above (e :: before) ts
    rw [styledUnder, Option.toList_some, sizes, sizes] at first
    rw [styledOf, Dom.placesOf, List.length_append, ← first, ← others, styledUnder,
      Option.toList_some, List.singleton_append, sizes]
    rfl

end

end Sizes

section Places

variable [Libraries]

mutual

theorem Holds.standsAt {p : Page} {rules : List Rule} {h i : Nat} {parent : Option Handle}
    {values : Option (Dict String)} {above : List Level} {before : List Dom.Element}
    {s : ElementSnapshot} {place : Place} :
    ∀ t : Tree, styledUnder rules values above before t = some s → p.Holds h parent s →
      p.ShowsAll (p.ancestors h) above → (t.placesUnder above before)[i]? = some place →
      p.StandsAt (h + i) place
  | .text _ => by
    intro styled
    cases styled
  | .comment _ => by
    intro styled
    cases styled
  | .element e children => by
    intro styled held up here
    rw [styledUnder] at styled
    rw [Tree.placesUnder] at here
    cases styled
    have shows : p.Shows h e := held.shows
    cases i with
    | zero =>
      cases here
      exact ⟨shows, up⟩
    | succ i =>
      have inner := HoldsAll.standsAt children held.holdsAll (.cons shows up) here
      rwa [Nat.add_right_comm] at inner

theorem HoldsAll.standsAt {p : Page} {rules : List Rule} {start parent i : Nat}
    {values : Option (Dict String)} {above : List Level} {before : List Dom.Element}
    {place : Place} :
    ∀ ts : List Tree, p.HoldsAll start parent (styledOf rules values above before ts) →
      p.ShowsAll (parent :: p.ancestors parent) above →
      (Dom.placesOf above before ts)[i]? = some place → p.StandsAt (start + i) place
  | [] => by
    intro _ _ here
    cases here
  | .text _ :: ts => by
    rw [styledOf, Dom.placesOf]
    · exact HoldsAll.standsAt ts
    all_goals simp
  | .comment _ :: ts => by
    rw [styledOf, Dom.placesOf]
    · exact HoldsAll.standsAt ts
    all_goals simp
  | .element e children :: ts => by
    intro held up here
    obtain ⟨s, styled⟩ : ∃ s, styledUnder rules values above before (.element e children) = some s :=
      ⟨_, by rw [styledUnder]⟩
    have size := size_styledUnder rules values above before (.element e children)
    rw [styled, Option.toList_some, sizes, sizes, Nat.add_zero] at size
    rw [styledOf, styled, Option.toList_some, List.singleton_append, HoldsAll] at held
    rw [Dom.placesOf] at here
    by_cases early : i < s.size
    · rw [List.getElem?_append_left (size ▸ early)] at here
      have line := p.isWalk_ancestors.step held.1.parent?_eq
      exact Holds.standsAt _ styled held.1 (line ▸ up) here
    · rw [List.getElem?_append_right (by omega), ← size] at here
      have later := HoldsAll.standsAt ts held.2 up here
      have place' : start + s.size + (i - s.size) = start + i := by omega
      exact place' ▸ later

end

end Places

/-- The elements of the page are the places of the document, in order. -/
theorem Numbers.standsAt [Libraries] {p : Page} {rules : List Rule} {t : Tree} {s : ElementSnapshot}
    (n : p.Numbers s) (styled : Static.styled? rules t = some s) :
    p.size = t.places.length ∧
      ∀ (h : Nat) (place : Place), t.places[h]? = some place → p.StandsAt h place := by
  constructor
  · have size := size_styledUnder rules none [] [] t
    rw [← Static.styled?, styled, Option.toList_some, sizes, sizes, Nat.add_zero] at size
    rw [n.size_eq, size, Tree.places]
  · intro h place here
    have top : p.ancestors 0 = [] := p.isWalk_ancestors.stop n.held.parent?_eq
    have stands := n.held.standsAt t styled (top ▸ .nil) here
    rwa [Nat.zero_add] at stands

end AuthoredStyle.Page
