import AuthoredStyle.Libraries.BuiltIn
import AuthoredStyle.Proofs.Cascade.Choice
import AuthoredStyle.Proofs.Page.Styled
import AuthoredStyle.Proofs.Selector.Readers

/-!
# Styled documents and the selectors of rules

The rules of a styled document are matched twice, with the places of the document when its
values are computed and with the elements of the page when it is inspected. Where both know
the selector, whatever the cascade accepts is accepted on the page, and without child
combinators nothing else is: to the page's matcher a child is any descendant.

Every part takes the nearest ancestor that it holds of in both, so the two climbs go side by
side once all combinators are loosened.
-/

namespace AuthoredStyle.Selector

open Cascade (Chosen Combinator Committed Complex Compound holdsLeft)
open Dom (Level Place Tree)
open Page (Handle)

/-! ## Loosening -/

/-- The same compounds, each tied as a descendant only. -/
def loosened (left : List (Combinator × Compound)) : List (Combinator × Compound) :=
  left.map fun l => (.descendant, l.2)

section Loosened

variable {left : List (Combinator × Compound)} {place : Place}

theorem loosened_eq_self (descendants : ∀ l ∈ left, l.1 = .descendant) : loosened left = left := by
  refine (List.map_congr_left fun l hl => ?_).trans (List.map_id left)
  rw [← descendants l hl]
  rfl

theorem chosen_loosened {chosen : List Place}
    (vertical : ∀ l ∈ left, l.1 = .child ∨ l.1 = .descendant) (h : Chosen place left chosen) :
    Chosen place (loosened left) chosen := by
  induction h with
  | nil => exact .nil
  | cons related holds _ ih =>
    obtain ⟨here, later⟩ := List.forall_mem_cons.mp vertical
    refine .cons ?_ holds (ih later)
    rcases here with rfl | rfl
    · exact .single related
    · exact related

theorem committed_loosened : Committed ((loosened left).map (·.1)) := by
  have same : ∀ how ∈ (loosened left).map (·.1), how = .descendant := by
    intro how hh
    rw [loosened, List.map_map] at hh
    obtain ⟨l, -, rfl⟩ := List.mem_map.mp hh
    rfl
  intro near far inside
  rw [same near (inside.subset (by simp)), same far (inside.subset (by simp))]
  exact id

theorem holdsLeft_loosened (vertical : ∀ l ∈ left, l.1 = .child ∨ l.1 = .descendant)
    (accepted : holdsLeft left place = true) : holdsLeft (loosened left) place = true := by
  obtain ⟨chosen, h⟩ := Cascade.exists_chosen_of_holdsLeft accepted
  exact Cascade.holdsLeft_of_chosen committed_loosened (chosen_loosened vertical h)

end Loosened

/-! ## Side by side -/

section Climbs

variable {p : Page} {h : Handle}

/-- Classes of the inspector are left out by the page alone, and no part asks for one. -/
theorem holdsOf_toCompound {part : Part} {e : Dom.Element} (shows : p.Shows h e)
    (unmarked : ∀ c ∈ part.classes, Page.isMarker c = false) :
    part.toCompound.holdsOf e = part.holdsOf p h := by
  have own : Text.lower (p.tag h).toList = e.tag.toList := by
    rw [shows.tag, ← String.toList_ofList (l := Text.lower e.tag.toList), Page.lowered_tag]
  have tags (t : String) : (e.tag = Dom.Element.lowered t : Bool) =
      (Text.lower (p.tag h).toList = Text.lower t.toList : Bool) := by
    rw [own, Dom.Element.lowered, decide_eq_decide, ← String.toList_inj, String.toList_ofList]
  have classes : ∀ c ∈ part.classes.toList, e.hasClass c = (p.classes h).contains c := by
    intro c hc
    rw [Dom.Element.hasClass, Page.classes, shows.classList, List.contains_eq_mem,
      List.contains_eq_mem, decide_eq_decide, List.mem_filter]
    simp [unmarked c hc]
  have named : part.classes.toList.all e.hasClass =
      part.classes.toList.all (p.classes h).contains := by
    rw [Bool.eq_iff_iff, List.all_eq_true, List.all_eq_true]
    exact forall₂_congr fun c hc => by rw [classes c hc]
  simp only [Compound.holdsOf, Part.toCompound, Part.holdsOf, tags, shows.id?, named, List.all_nil,
    Bool.and_true]

/-- Both look for the parts on one way up and never turn back. -/
theorem holdsLeft_eq_foundAbove {parts : List Part}
    (unmarked : ∀ part ∈ parts, ∀ c ∈ part.classes, Page.isMarker c = false)
    {hs : List Handle} {above : List Level} (shown : p.ShowsAll hs above) (level : Level) :
    holdsLeft (parts.map fun part => (.descendant, part.toCompound)) ⟨level, above⟩ =
      foundAbove p parts hs := by
  induction shown generalizing parts level with
  | nil => cases parts <;> rfl
  | @cons a l hs ls shows shown ih =>
    cases parts with
    | nil => rfl
    | cons part parts =>
      obtain ⟨here, later⟩ := List.forall_mem_cons.mp unmarked
      have same := holdsOf_toCompound shows here
      rw [List.map_cons, holdsLeft, foundAbove, Combinator.places, Place.ancestors,
        Place.ancestorsFrom, List.find?_cons]
      cases taken : part.holdsOf p a with
      | true =>
        rw [Place.element, same, taken, if_pos rfl, ← ih later l]
      | false =>
        rw [Place.element, same, taken, if_neg (by simp), ← ih unmarked l]
        rfl

end Climbs

/-- On the page, a selector is accepted exactly if the cascade accepts it loosened. -/
theorem IsCommonSelector.exists_loosened {p : Page} {h : Handle} {place : Place} {selector : String}
    (common : IsCommonSelector selector) (stands : p.StandsAt h place) :
    ∃ c, Complex.ofText? selector = some c ∧
      selects selector p h = (c.key.holdsOf place.element && holdsLeft (loosened c.left) place) ∧
      (∀ l ∈ c.left, l.1 = .child ∨ l.1 = .descendant) ∧
      ('>' ∉ selector.toList → ∀ l ∈ c.left, l.1 = .descendant) := by
  obtain ⟨last, outer, left, shape, read, compounds, vertical, loose⟩ := common.exists_ofText?
  have unmarked : ∀ part ∈ last :: outer, ∀ c ∈ part.classes, Page.isMarker c = false := by
    intro part hp
    exact common.unmarked part (List.mem_reverse.mp (shape ▸ hp))
  obtain ⟨key, others⟩ := List.forall_mem_cons.mp unmarked
  have tied : loosened left = outer.map fun part => (.descendant, part.toCompound) := by
    have all := congrArg (List.map fun c => (Combinator.descendant, c)) compounds
    rwa [List.map_map, List.map_map] at all
  refine ⟨_, read, ?_, vertical, loose⟩
  rw [selects, shape, holds, holdsOf_toCompound stands.shows key, tied,
    holdsLeft_eq_foundAbove others stands.above place.level]

/-- A styled document has a page, and each of its places an element of the page. What the
cascade says of a selector at a place, the page's matcher says of it at the element, if no
child combinator is written; and if one is, whatever the cascade accepts is accepted. -/
theorem selects_agrees_with_cascade [Libraries] (rules : List Cascade.Rule) (root : Dom.Element)
    (children : List Tree) (sheets : List Page.Stylesheet) :
    let t := Tree.element root children
    ∃ document, Page.Static.styled? rules t = some document ∧
      let p := Page.ofSnapshot ⟨document, sheets⟩
      p.size = t.places.length ∧
        ∀ (h : Handle) (place : Place), t.places[h]? = some place →
          ∀ selector, IsCommonSelector selector →
            ∃ c, Complex.ofText? selector = some c ∧
              (c.holdsAt place = true → selects selector p h = true) ∧
              ('>' ∉ selector.toList → c.holdsAt place = selects selector p h) := by
  intro t
  obtain ⟨document, styled⟩ : ∃ document, Page.Static.styled? rules t = some document :=
    ⟨_, by rw [Page.Static.styled?, Page.Static.styledUnder]⟩
  refine ⟨document, styled, ?_⟩
  intro p
  obtain ⟨size, standsAt⟩ :=
    Page.Numbers.standsAt (Page.numbers_ofSnapshot ⟨document, sheets⟩) styled
  refine ⟨size, fun h place here selector common => ?_⟩
  obtain ⟨c, read, shared, vertical, loose⟩ := common.exists_loosened (standsAt h place here)
  refine ⟨c, read, ?_, ?_⟩
  · intro accepted
    obtain ⟨key, above⟩ := Bool.and_eq_true_iff.mp accepted
    rw [shared, key, holdsLeft_loosened vertical above]
    rfl
  · intro absent
    rw [shared, loosened_eq_self (loose absent)]
    rfl

/-- A paragraph in a card in an article. -/
def articleTree : Tree :=
  .element { name := "article", attributes := [("ID", "top")] }
    [.element { name := "div", attributes := [("class", "card wide")] }
      [.text "Text", .element { name := "P", attributes := [("class", "lead")] } []]]

def leadPlace : Place where
  level := ⟨{ name := "P", attributes := [("class", "lead")] }, []⟩
  above := [⟨{ name := "div", attributes := [("class", "card wide")] }, []⟩,
    ⟨{ name := "article", attributes := [("ID", "top")] }, []⟩]

theorem isCommonSelector_of_words {selector : String} (ws : List (List Char))
    (words : Text.words selector.toList = ws) (some : ∃ w ∈ ws, w ≠ ['>'])
    (each : ∀ w ∈ ws, w = ['>'] ∨ IsCompound w) : IsCommonSelector selector := by
  subst words
  exact ⟨some, each⟩

theorem isFront_letter {c : Char} (letter : c.isAlpha = true) : IsFront [c] := by
  have plain : isPlain c = true := by simp [isPlain, Char.isAlphanum, letter]
  exact .inr (.inr ⟨by simpa using letter, List.forall_mem_singleton.mpr plain⟩)

theorem isCompound_top : IsCompound "#top".toList :=
  ⟨[], [.id "top".toList], rfl, .inl rfl, by decide⟩

theorem isCommonSelector_child : IsCommonSelector "#top > .card.wide p" := by
  have card : IsCompound ".card.wide".toList :=
    ⟨[], [.cls "card".toList, .cls "wide".toList], rfl, .inl rfl, by decide⟩
  have paragraph : IsCompound ['p'] := ⟨['p'], [], rfl, isFront_letter rfl, by decide⟩
  refine isCommonSelector_of_words ["#top".toList, ['>'], ".card.wide".toList, ['p']]
    (by decide +kernel) ⟨['p'], by decide, by decide⟩ fun w hw => ?_
  simp only [List.mem_cons, List.not_mem_nil, or_false] at hw
  rcases hw with rfl | rfl | rfl | rfl
  exacts [.inr isCompound_top, .inl rfl, .inr card, .inr paragraph]

theorem isCommonSelector_lead : IsCommonSelector "#top p.lead" := by
  have lead : IsCompound "p.lead".toList :=
    ⟨['p'], [.cls "lead".toList], rfl, isFront_letter rfl, by decide⟩
  refine isCommonSelector_of_words ["#top".toList, "p.lead".toList] (by decide +kernel)
    ⟨"#top".toList, by decide, by decide⟩ fun w hw => ?_
  simp only [List.mem_cons, List.not_mem_nil, or_false] at hw
  rcases hw with rfl | rfl
  exacts [.inr isCompound_top, .inr lead]

/-- With a child combinator and without one. -/
theorem selects_agrees_with_cascade_of_lead :
    articleTree.places[2]? = some leadPlace ∧
      ∃ document, Page.Static.styled? [] articleTree = some document ∧
        let p := Page.ofSnapshot ⟨document, []⟩
        selects "#top > .card.wide p" p 2 = true ∧ selects "#top p.lead" p 2 = true := by
  have here : articleTree.places[2]? = some leadPlace := rfl
  have child : (Complex.ofText? "#top > .card.wide p").any (·.holdsAt leadPlace) = true := by
    decide +kernel
  have lead : (Complex.ofText? "#top p.lead").any (·.holdsAt leadPlace) = true := by
    decide +kernel
  obtain ⟨document, styled, -, agrees⟩ := selects_agrees_with_cascade [] _ _ []
  obtain ⟨c, read, sound, -⟩ := agrees 2 leadPlace here _ isCommonSelector_child
  obtain ⟨c', read', -, same⟩ := agrees 2 leadPlace here _ isCommonSelector_lead
  rw [read, Option.any_some] at child
  rw [read', Option.any_some] at lead
  exact ⟨here, document, styled, sound child, (same (by decide)).symm.trans lead⟩

end AuthoredStyle.Selector
