import AuthoredStyle.Page.Path
import AuthoredStyle.Selector.Match
import AuthoredStyle.Proofs.Page.Ancestry

/-!
# Pages without their markers

The inspector marks elements by classes of its own, at any place of a class list. A page
from which these are erased answers every query as the marked page does, the raw class
list aside, so paths lead to the same elements in both and selectors select the same.
-/

namespace AuthoredStyle.Page

mutual

def ElementSnapshot.unmarked : ElementSnapshot → ElementSnapshot
  | ⟨tag, id, classes, computed, children⟩ =>
    ⟨tag, id, classes.filter (!isMarker ·), computed, unmarkedAll children⟩

def unmarkedAll : List ElementSnapshot → List ElementSnapshot
  | [] => []
  | t :: ts => t.unmarked :: unmarkedAll ts

end

def Element.unmarked (e : Element) : Element :=
  { e with classes := e.classes.filter (!isMarker ·) }

def unmarked (p : Page) : Page where
  elements := p.elements.map Element.unmarked
  stylesheets := p.stylesheets
  parentsBefore := by
    intro i e found a parent
    rw [Array.toList_map, List.getElem?_map] at found
    obtain ⟨marked, here, rfl⟩ := Option.map_eq_some_iff.mp found
    exact p.parentsBefore i marked here a parent

/-! ## Numbering -/

mutual

theorem size_unmarked : ∀ t : ElementSnapshot, t.unmarked.size = t.size
  | ⟨tag, id, classes, computed, children⟩ => by
    rw [ElementSnapshot.unmarked, ElementSnapshot.size, ElementSnapshot.size,
      sizes_unmarkedAll children]

theorem sizes_unmarkedAll : ∀ ts : List ElementSnapshot, sizes (unmarkedAll ts) = sizes ts
  | [] => rfl
  | t :: ts => by rw [unmarkedAll, sizes, sizes, size_unmarked t, sizes_unmarkedAll ts]

end

theorem childNumbers_unmarkedAll (start : Nat) (ts : List ElementSnapshot) :
    childNumbers start (unmarkedAll ts) = childNumbers start ts := by
  induction ts generalizing start with
  | nil => rfl
  | cons t ts ih => rw [unmarkedAll, childNumbers, childNumbers, size_unmarked, ih]

mutual

theorem number_unmarked (start : Nat) (parent : Option Nat) :
    ∀ t : ElementSnapshot,
      number start parent t.unmarked = (number start parent t).map Element.unmarked
  | ⟨tag, id, classes, computed, children⟩ => by
    rw [ElementSnapshot.unmarked, number, number, List.map_cons, childNumbers_unmarkedAll,
      numberAll_unmarkedAll (start + 1) start children]
    rfl

theorem numberAll_unmarkedAll (start parent : Nat) :
    ∀ ts : List ElementSnapshot,
      numberAll start parent (unmarkedAll ts) = (numberAll start parent ts).map Element.unmarked
  | [] => rfl
  | t :: ts => by
    rw [unmarkedAll, numberAll, numberAll, List.map_append, number_unmarked start (some parent) t,
      size_unmarked, numberAll_unmarkedAll (start + t.size) parent ts]

end

/-- Erasing markers before an element is numbered or after it is the same. -/
theorem ofSnapshot_unmarked (document : ElementSnapshot) (stylesheets : List Stylesheet) :
    ofSnapshot ⟨document.unmarked, stylesheets⟩ = (ofSnapshot ⟨document, stylesheets⟩).unmarked := by
  have same : push #[] none document.unmarked = (push #[] none document).map Element.unmarked := by
    refine Array.toList_inj.mp ?_
    rw [Array.toList_map, toList_push_empty, toList_push_empty, number_unmarked]
  simp only [ofSnapshot, unmarked, same]

/-! ## Queries -/

section Queries

variable (p : Page)

theorem getElem?_unmarked (h : Handle) :
    p.unmarked.elements[h]? = p.elements[h]?.map Element.unmarked :=
  Array.getElem?_map

@[simp] theorem stylesheets_unmarked : p.unmarked.stylesheets = p.stylesheets := rfl

@[simp] theorem root?_unmarked : p.unmarked.root? = p.root? := by
  simp [root?, isEmpty, unmarked]

@[simp] theorem tag_unmarked (h : Handle) : p.unmarked.tag h = p.tag h := by
  rw [tag, getElem?_unmarked, Option.map_map]
  rfl

@[simp] theorem id?_unmarked (h : Handle) : p.unmarked.id? h = p.id? h := by
  rw [id?, getElem?_unmarked, Option.bind_map]
  rfl

@[simp] theorem children_unmarked (h : Handle) : p.unmarked.children h = p.children h := by
  rw [children, getElem?_unmarked, Option.map_map]
  rfl

@[simp] theorem parent?_unmarked (h : Handle) : p.unmarked.parent? h = p.parent? h := by
  rw [parent?, getElem?_unmarked, Option.bind_map]
  rfl

@[simp] theorem computed_unmarked (h : Handle) (property : String) :
    p.unmarked.computed h property = p.computed h property := by
  rw [computed, getElem?_unmarked, Option.bind_map]
  rfl

/-- The raw class list is all that changes, and what is left of it are the classes. -/
theorem classList_unmarked (h : Handle) : p.unmarked.classList h = p.classes h := by
  rw [classes, classList, classList, getElem?_unmarked]
  cases p.elements[h]? <;> rfl

@[simp] theorem classes_unmarked (h : Handle) : p.unmarked.classes h = p.classes h := by
  rw [classes, classList_unmarked, classes, List.filter_filter]
  simp only [Bool.and_self]

@[simp] theorem ancestors_unmarked (h : Handle) : p.unmarked.ancestors h = p.ancestors h := by
  induction h using Nat.strongRecOn with
  | ind h ih =>
    cases link : p.parent? h with
    | none =>
      have link' := (p.parent?_unmarked h).trans link
      rw [p.unmarked.isWalk_ancestors.stop link', p.isWalk_ancestors.stop link]
    | some a =>
      have link' := (p.parent?_unmarked h).trans link
      rw [p.unmarked.isWalk_ancestors.step link', p.isWalk_ancestors.step link,
        ih a (parent?_lt link)]

@[simp] theorem pathOf_unmarked (h : Handle) : p.unmarked.pathOf h = p.pathOf h := by
  have step (c : Handle) : p.unmarked.stepOf c = p.stepOf c := by
    simp only [stepOf, placeAmong, tag_unmarked, parent?_unmarked, children_unmarked]
  rw [pathOf, pathOf, ancestors_unmarked, List.map_congr_left fun c _ => step c]

@[simp] theorem resolve?_unmarked (path : String) : p.unmarked.resolve? path = p.resolve? path := by
  have child : p.unmarked.childAt? = p.childAt? := by
    funext h s
    simp only [childAt?, tag_unmarked, children_unmarked]
  simp only [resolve?, root?_unmarked, tag_unmarked, child]

end Queries

end Page

namespace Selector

variable (p : Page)

theorem holdsOf_unmarked (part : Part) (h : Page.Handle) :
    part.holdsOf p.unmarked h = part.holdsOf p h := by
  simp only [Part.holdsOf, Page.tag_unmarked, Page.id?_unmarked, Page.classes_unmarked]

theorem foundAbove_unmarked (parts : List Part) (above : List Page.Handle) :
    foundAbove p.unmarked parts above = foundAbove p parts above := by
  induction above generalizing parts with
  | nil => cases parts <;> rfl
  | cons h above ih =>
    cases parts with
    | nil => rfl
    | cons part parts => rw [foundAbove, foundAbove, holdsOf_unmarked, ih, ih]

@[simp] theorem selects_unmarked (selector : String) (h : Page.Handle) :
    selects selector p.unmarked h = selects selector p h := by
  rw [selects, selects]
  cases (parts selector).reverse with
  | nil => rfl
  | cons last outer =>
    rw [holds, holds, holdsOf_unmarked, foundAbove_unmarked, Page.ancestors_unmarked]

end Selector

end AuthoredStyle
