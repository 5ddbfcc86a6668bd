import AuthoredStyle.Proofs.Selector.Climb
import AuthoredStyle.Proofs.Selector.Names

/-!
# Pages that satisfy a selector

For the parts of a selector there is a page of one element for each part, inside the one for
the part before, that has what the part asks for and nothing else. It has an element that the
selector selects, unless a part asks for a class of the inspector's own, which no element
shows. So these classes are the only thing that a selector asks for in vain.
-/

namespace AuthoredStyle.Selector

open Page (ElementSnapshot Handle)

/-! ## Elements in one another -/

/-- The elements, each inside the one before. -/
def nest (e : ElementSnapshot) : List ElementSnapshot → ElementSnapshot
  | [] => { e with children := [] }
  | inner :: es => { e with children := [nest inner es] }

/-- One element stands on each level, under the one on the level above. -/
theorem getElem?_number_nest (start : Nat) (parent : Option Nat) (e : ElementSnapshot)
    (es : List ElementSnapshot) (k : Nat) :
    ∃ children, (Page.number start parent (nest e es))[k]? = (e :: es)[k]?.map fun t =>
      { tag := String.ofList (Text.lower t.tag.toList), id := t.id, classes := t.classes,
        computed := t.computed, parent := if k = 0 then parent else some (start + k - 1),
        children := children } := by
  induction es generalizing start parent e k with
  | nil =>
    cases k with
    | zero => exact ⟨_, rfl⟩
    | succ k => exact ⟨[], by simp [nest, Page.number, Page.numberAll]⟩
  | cons inner es ih =>
    cases k with
    | zero => exact ⟨_, rfl⟩
    | succ k =>
      obtain ⟨children, found⟩ := ih (start + 1) (some start) inner k
      refine ⟨children, ?_⟩
      rw [nest, Page.number, List.getElem?_cons_succ, Page.numberAll, Page.numberAll,
        List.append_nil, found, List.getElem?_cons_succ]
      cases k with
      | zero => rfl
      | succ k => simp [Nat.add_assoc, Nat.add_comm]

/-! ## What a part asks for -/

namespace Part

/-- No class asked for is one of the inspector's own. -/
def Satisfiable (part : Part) : Prop := ∀ c ∈ part.classes, Page.isMarker c = false

/-- The tag that a part asks for, or any at all. -/
def someTag (part : Part) : String := part.tag.getD "div"

/-- An element made for the part. -/
def model (part : Part) : ElementSnapshot where
  tag := part.someTag
  id := part.id
  classes := part.classes.toList

/-- The element has what the part asks for and nothing else. -/
structure Fits (part : Part) (p : Page) (h : Handle) : Prop where
  tag : p.tag h = String.ofList (Text.lower part.someTag.toList)
  id : p.id? h = part.id
  classes : p.classes h = part.classes.toList

theorem Fits.holdsOf {part : Part} {p : Page} {h : Handle} (fits : part.Fits p h) :
    part.holdsOf p h = true := by
  rw [Part.holdsOf, fits.tag, fits.id, fits.classes]
  cases asked : part.tag <;> cases part.id <;> simp [someTag, asked, Text.lower_lower]

theorem satisfiable_of_holdsOf {part : Part} {p : Page} {h : Handle}
    (holds : part.holdsOf p h = true) : part.Satisfiable := by
  intro c hc
  rw [holdsOf, Bool.and_eq_true] at holds
  have shown := List.all_eq_true.mp holds.2 c hc
  have kept : c ∈ p.classes h := by simpa using shown
  simpa using (List.mem_filter.mp kept).2

end Part

theorem exists_holdsOf_of_selects {p : Page} {part : Part} {selector : String}
    {h : Handle} (selected : selects selector p h = true) (hp : part ∈ parts selector) :
    ∃ a, part.holdsOf p a = true := by
  obtain ⟨outer, last, split, here, chain, -, -, hold⟩ := selects_iff_matches.mp selected
  rw [split] at hp
  rcases List.mem_append.mp hp with outside | own
  · clear hp split selected
    induction hold with
    | nil => cases outside
    | cons first hold ih =>
      rcases List.mem_cons.mp outside with rfl | outside
      · exact ⟨_, first⟩
      · exact ih outside
  · exact ⟨h, List.mem_singleton.mp own ▸ here⟩

/-- The page of these parts' elements, from the outside in. -/
def partPage (outermost : Part) (inner : List Part) : Page.Snapshot where
  document := nest outermost.model (inner.map Part.model)

theorem reverse_take_succ {α : Type} {l : List α} {k : Nat} {x : α} (at' : l[k]? = some x) :
    (l.take (k + 1)).reverse = x :: (l.take k).reverse := by
  rw [List.take_add_one, at', Option.toList_some, List.reverse_append, List.reverse_singleton,
    List.singleton_append]

section PartPage

variable (outermost : Part) (inner : List Part)

theorem element_partPage (k : Nat) :
    ∃ children, (Page.ofSnapshot (partPage outermost inner)).elements[k]? =
      (outermost :: inner)[k]?.map fun part =>
        { tag := String.ofList (Text.lower part.someTag.toList), id := part.id,
          classes := part.classes.toList, computed := ∅,
          parent := if k = 0 then none else some (k - 1), children := children } := by
  obtain ⟨children, found⟩ :=
    getElem?_number_nest 0 none outermost.model (inner.map Part.model) k
  refine ⟨children, ?_⟩
  rw [Page.elements_ofSnapshot, List.getElem?_toArray, partPage, found,
    ← List.map_cons (f := Part.model), List.getElem?_map, Option.map_map, Nat.zero_add]
  rfl

theorem parent?_partPage {k : Nat} (inside : k < inner.length + 1) :
    (Page.ofSnapshot (partPage outermost inner)).parent? k = if k = 0 then none else some (k - 1) := by
  obtain ⟨children, found⟩ := element_partPage outermost inner k
  rw [Page.parent?, found, List.getElem?_eq_getElem (by simpa using inside)]
  rfl

variable {outermost inner}

theorem fits_partPage {k : Nat} {part : Part} (at' : (outermost :: inner)[k]? = some part)
    (satisfiable : part.Satisfiable) : part.Fits (.ofSnapshot (partPage outermost inner)) k := by
  obtain ⟨children, found⟩ := element_partPage outermost inner k
  rw [at'] at found
  refine ⟨by rw [Page.tag, found]; rfl, by rw [Page.id?, found]; rfl, ?_⟩
  have shown : part.classes.toList.filter (!Page.isMarker ·) = part.classes.toList :=
    List.filter_eq_self.mpr fun c hc => by simp [satisfiable c hc]
  rw [Page.classes, Page.classList, found]
  exact shown

variable (satisfiable : ∀ part ∈ outermost :: inner, part.Satisfiable)
include satisfiable

/-- Level by level, what is above finds the parts in front. -/
theorem foundAbove_partPage {k : Nat} (inside : k < inner.length + 1) :
    foundAbove (.ofSnapshot (partPage outermost inner)) ((outermost :: inner).take k).reverse
      ((Page.ofSnapshot (partPage outermost inner)).ancestors k) = true := by
  induction k with
  | zero => rw [List.take_zero, List.reverse_nil, foundAbove]
  | succ k ih =>
    have link := parent?_partPage outermost inner inside
    have part := List.getElem?_eq_getElem (l := outermost :: inner) (i := k) (by simp; omega)
    rw [reverse_take_succ part, (Page.isWalk_ancestors _).step link, Nat.add_sub_cancel, foundAbove,
      if_pos (fits_partPage part (satisfiable _ (List.mem_of_getElem? part))).holdsOf]
    exact ih (by omega)

theorem holds_partPage :
    holds (outermost :: inner).reverse (.ofSnapshot (partPage outermost inner)) inner.length =
      true := by
  have last := List.getElem?_eq_getElem (l := outermost :: inner) (i := inner.length) (by simp)
  have whole := reverse_take_succ last
  rw [List.take_of_length_le (by simp)] at whole
  rw [whole, holds, (fits_partPage last (satisfiable _ (List.mem_of_getElem? last))).holdsOf,
    foundAbove_partPage satisfiable (Nat.lt_succ_self _)]
  rfl

end PartPage

/-- A selector whose parts can be satisfied selects an element made for its last part. -/
theorem exists_fits_of_satisfiable {selector : String} {front : List Part} {last : Part}
    (read : parts selector = front ++ [last])
    (satisfiable : ∀ part ∈ parts selector, part.Satisfiable) :
    ∃ s : Page.Snapshot, ∃ h < (Page.ofSnapshot s).size,
      selects selector (.ofSnapshot s) h = true ∧ last.Fits (.ofSnapshot s) h := by
  obtain ⟨outermost, inner, shape⟩ := List.exists_cons_of_ne_nil
    (List.append_ne_nil_of_right_ne_nil front (List.cons_ne_nil last []))
  rw [read, shape] at satisfiable
  have length : front.length = inner.length := by simpa using congrArg List.length shape
  have at' : (outermost :: inner)[inner.length]? = some last := by
    rw [← shape, ← length, List.getElem?_concat_length]
  obtain ⟨children, found⟩ := element_partPage outermost inner inner.length
  rw [at'] at found
  refine ⟨partPage outermost inner, inner.length, (Array.getElem?_eq_some_iff.mp found).1, ?_,
    fits_partPage at' (satisfiable _ (List.mem_of_getElem? at'))⟩
  rw [selects, read, shape]
  exact holds_partPage satisfiable

end AuthoredStyle.Selector
