import AuthoredStyle.Proofs.Cascade.Choice

/-!
# When committing to the nearest candidate costs a match

For combinators of which one hinders its left neighbour a tree is built where
the nearest candidate fails and a farther one does not. Two elements with one
tag stand in a row towards the element to be selected, and only the farther one
is tied to an element with the other tag. Compounds that ask for nothing fill
the rest of the selector, and the elements for them are hung around these.

Together with the exchange this settles for which combinators matching agrees
with the meaning of selectors on every tree.
-/

namespace AuthoredStyle.Cascade

open Dom (Element Place Tree)

/-- A new element put where the nearest place that the combinator allows is `q`. -/
def Combinator.hang (how : Combinator) (q : Place) (e : Element) : Place :=
  match how with
  | descendant | child => ⟨⟨e, []⟩, q.level :: q.above⟩
  | adjacent | sibling => ⟨⟨e, q.element :: q.level.before⟩, q.above⟩

/-- Like elements hung one behind the other, the first combinator outermost. -/
def hangAll (e : Element) (hows : List Combinator) (q : Place) : Place :=
  hows.foldr (fun how q => how.hang q e) q

/-- Compounds that ask for nothing, tied by the given combinators. -/
def unasking (hows : List Combinator) : List (Combinator × Compound) := hows.map (·, {})

theorem inside_hang {how : Combinator} {q : Place} {e : Element} (h : q.Inside) :
    (how.hang q e).Inside := by
  obtain ⟨outer, root, above⟩ := h
  cases how with
  | descendant | child => exact ⟨q.level :: outer, root, by simp [Combinator.hang, above]⟩
  | adjacent | sibling => exact ⟨outer, root, above⟩

theorem inside_hangAll {hows : List Combinator} {q : Place} {e : Element} (h : q.Inside) :
    (hangAll e hows q).Inside := by
  induction hows with
  | nil => exact h
  | cons how hows ih => exact inside_hang ih

theorem hang_relates (how : Combinator) (q : Place) (e : Element) : how.Relates q (how.hang q e) := by
  cases how with
  | descendant => exact .single rfl
  | child => rfl
  | adjacent => rfl
  | sibling => exact .single rfl

theorem places_hang (how : Combinator) (q : Place) (e : Element) :
    ∃ farther, how.places (how.hang q e) = q :: farther := by
  cases how with
  | descendant => exact ⟨q.ancestors, rfl⟩
  | child => exact ⟨[], rfl⟩
  | adjacent => exact ⟨[], rfl⟩
  | sibling => exact ⟨q.previousSiblings, rfl⟩

theorem holdsLeft_hang {how : Combinator} {compound : Compound} {q : Place} {e : Element}
    {left : List (Combinator × Compound)} (holds : compound.holdsOf q.element = true) :
    holdsLeft ((how, compound) :: left) (how.hang q e) = holdsLeft left q := by
  obtain ⟨farther, nearest⟩ := places_hang how q e
  simp [holdsLeft, nearest, holds]

theorem holdsOf_unasking (e : Element) : Compound.holdsOf {} e = true := by
  simp [Compound.holdsOf, EmptyCollection.emptyCollection]

theorem holdsLeft_hangAll {hows : List Combinator} {q : Place} {e : Element}
    {left : List (Combinator × Compound)} :
    holdsLeft (unasking hows ++ left) (hangAll e hows q) = holdsLeft left q := by
  induction hows with
  | nil => rfl
  | cons how hows ih => exact (holdsLeft_hang (holdsOf_unasking _)).trans ih

theorem chosen_hangAll (hows : List Combinator) {q : Place} {e : Element}
    {left : List (Combinator × Compound)} {chosen : List Place} (h : Chosen q left chosen) :
    ∃ chosen, Chosen (hangAll e hows q) (unasking hows ++ left) chosen := by
  induction hows with
  | nil => exact ⟨chosen, h⟩
  | cons how hows ih =>
    obtain ⟨rest, h⟩ := ih
    exact ⟨_, .cons (hang_relates how _ e) (holdsOf_unasking _) h⟩

/-! ## The loss -/

def wanted : Element := { name := "a" }

def passed : Element := { name := "b" }

def wantedTag : Compound := { tag := some "a" }

def passedTag : Compound := { tag := some "b" }

theorem wantedTag_holds : wantedTag.holdsOf wanted = true := by decide

theorem passedTag_holds : passedTag.holdsOf passed = true := by decide

theorem wantedTag_fails : wantedTag.holdsOf passed = false := by decide

/-- The nearest of two like places in a row is not tied to what the farther one
is tied to. -/
theorem find?_wanted_eq_none {near far : Combinator} (hinders : near.Hinders far) (q : Place) :
    (far.places (near.hang (far.hang q passed) passed)).find?
      (fun r => wantedTag.holdsOf r.element) = none := by
  cases near <;> cases far <;>
    first
    | exact hinders.elim
    | simp [Combinator.hang, Combinator.places, Place.parent?, Place.previousSiblings,
        Place.siblingsFrom, Place.element, wantedTag_fails]

theorem relates_hang_hang {near far : Combinator} (hinders : near.Hinders far) (q : Place)
    (e d : Element) : near.Relates q (near.hang (near.hang q e) d) := by
  cases near with
  | descendant => exact .tail (.single rfl) rfl
  | sibling => exact .tail (.single rfl) rfl
  | child => exact hinders.elim
  | adjacent => exact hinders.elim

/-- A place from which any combinators lead on, below an element that is not
a root. -/
def ground : Place := ⟨⟨wanted, []⟩, [⟨wanted, []⟩]⟩

theorem inside_ground : ground.Inside := ⟨[], wanted, rfl⟩

/-- Compounds and a place of a tree for which the nearest candidate is wrong. -/
theorem exists_loss {hows : List Combinator} (h : ¬ Committed hows) :
    ∃ (t : Tree) (p : Place) (left : List (Combinator × Compound)), p ∈ t.places ∧
      left.map (·.1) = hows ∧ holdsLeft left p = false ∧ ∃ chosen, Chosen p left chosen := by
  simp only [Committed, not_forall, not_not] at h
  obtain ⟨near, far, ⟨before, behind, rfl⟩, hinders⟩ := h
  let tied : Place := hangAll wanted behind ground
  have tiedWanted : tied.element = wanted := by
    cases behind with
    | nil => rfl
    | cons how hows => cases how <;> rfl
  let start : Place := near.hang (near.hang (far.hang tied passed) passed) wanted
  have nearElement : (near.hang (far.hang tied passed) passed).element = passed := by
    cases near <;> rfl
  have farElement : (far.hang tied passed).element = passed := by cases far <;> rfl
  let left := (near, passedTag) :: (far, wantedTag) :: unasking behind
  have lost : holdsLeft left start = false := by
    refine (holdsLeft_hang (by rw [nearElement]; exact passedTag_holds)).trans ?_
    rw [holdsLeft, find?_wanted_eq_none hinders]
  obtain ⟨rest, onward⟩ := chosen_hangAll behind (e := wanted) (q := ground) .nil
  have choice : Chosen start left (far.hang tied passed :: tied :: rest) := by
    refine .cons (relates_hang_hang hinders _ _ _) (by rw [farElement]; exact passedTag_holds) ?_
    refine .cons (hang_relates far tied passed) (by rw [tiedWanted]; exact wantedTag_holds) ?_
    simpa using onward
  have inside : (hangAll wanted before start).Inside :=
    inside_hangAll (inside_hang (inside_hang (inside_hang (inside_hangAll inside_ground))))
  obtain ⟨t, ht⟩ := inside.exists_tree
  refine ⟨t, hangAll wanted before start, unasking before ++ left, ht, ?_, ?_, ?_⟩
  · simp [left, unasking, Function.comp_def]
  · rw [holdsLeft_hangAll]
    exact lost
  · exact chosen_hangAll before choice

/-- For selectors with a given list of combinators, acceptance implies selection in
every tree; and acceptance is selection, on every element of every tree and with any
compounds, exactly when no combinator hinders its left neighbour. -/
theorem holdsAt_selectsIn_exact (hows : List Combinator) :
    (∀ (t : Tree) (p : Place), p ∈ t.places → ∀ s : Complex, s.left.map (·.1) = hows →
      s.holdsAt p = true → s.SelectsIn t p) ∧
    ((∀ (t : Tree) (p : Place), p ∈ t.places → ∀ s : Complex, s.left.map (·.1) = hows →
      (s.holdsAt p = true ↔ s.SelectsIn t p)) ↔ Committed hows) := by
  have sound : ∀ (t : Tree) (p : Place), p ∈ t.places → ∀ s : Complex, s.holdsAt p = true →
      s.SelectsIn t p := by
    intro t p hp s accepted
    rw [Complex.holdsAt, Bool.and_eq_true] at accepted
    exact (Complex.selectsIn_iff hp).mpr ⟨accepted.1, exists_chosen_of_holdsLeft accepted.2⟩
  refine ⟨fun t p hp s _ => sound t p hp s, ?_, ?_⟩
  · intro agree
    by_contra uncommitted
    obtain ⟨t, p, left, hp, shape, lost, choice⟩ := exists_loss uncommitted
    have selected : Complex.SelectsIn t ⟨{}, left⟩ p :=
      (Complex.selectsIn_iff hp).mpr ⟨holdsOf_unasking _, choice⟩
    have accepted := (agree t p hp ⟨{}, left⟩ shape).mpr selected
    simp [Complex.holdsAt, lost] at accepted
  · intro committed t p hp s shape
    refine ⟨sound t p hp s, fun selected => ?_⟩
    obtain ⟨key, chosen, h⟩ := (Complex.selectsIn_iff hp).mp selected
    rw [Complex.holdsAt, key, holdsLeft_of_chosen (shape ▸ committed) h]
    rfl

/-- A paragraph in the inner of two divisions of a section. -/
def nestedDivisions : Tree :=
  .element { name := "section" }
    [.element { name := "div" } [.element { name := "div" } [.element { name := "p" } []]]]

def outerDivision : Place := ⟨⟨{ name := "div" }, []⟩, [⟨{ name := "section" }, []⟩]⟩

def innerParagraph : Place :=
  ⟨⟨{ name := "p" }, []⟩, ⟨{ name := "div" }, []⟩ :: outerDivision.level :: outerDivision.above⟩

def paragraphSelector : Complex :=
  ⟨{ tag := some "p" }, [(.descendant, { tag := some "div" }), (.child, { tag := some "section" })]⟩

/-- The paragraph is selected by way of the outer division, but the inner one is
nearer and is no child of the section. -/
theorem nested_division_loses_match :
    Complex.ofText? "section > div p" = some paragraphSelector ∧
      innerParagraph ∈ nestedDivisions.places ∧
      paragraphSelector.SelectsIn nestedDivisions innerParagraph ∧
      paragraphSelector.holdsAt innerParagraph = false := by
  have place : innerParagraph ∈ nestedDivisions.places := by decide
  have above : Combinator.descendant.Relates outerDivision innerParagraph :=
    .tail (.single rfl) rfl
  obtain ⟨sectionPlace, parent⟩ : ∃ q, outerDivision.parent? = some q := ⟨_, rfl⟩
  refine ⟨by decide +kernel, place, ?_, by decide⟩
  refine (Complex.selectsIn_iff place).mpr ⟨by decide, [outerDivision, sectionPlace], ?_⟩
  refine .cons above (by decide) (.cons parent ?_ .nil)
  cases parent
  decide

end AuthoredStyle.Cascade
