import AuthoredStyle.Selector.Match
import AuthoredStyle.Proofs.Page.Ancestry

/-!
# Greedy matching against the ancestors

A selector's parts are looked for on one walk up, each taking the first element
that it holds of, and no choice is undone. The walk still finds the parts
whenever any choice of ancestors does: giving a part a nearer element only leaves
more ancestors for the parts to its left. Child and descendant combinators are
not told apart here, so nothing is claimed about adjacency.
-/

namespace AuthoredStyle.Selector

open Page (Handle)

/-- Parts and elements, both nearest first, each part holding of its element. -/
def HoldTogether (p : Page) : List Part → List Handle → Prop :=
  List.Forall₂ fun part h => part.holdsOf p h = true

theorem sublist_of_foundAbove {p : Page} {parts : List Part} {above : List Handle}
    (found : foundAbove p parts above = true) :
    ∃ chosen, chosen.Sublist above ∧ HoldTogether p parts chosen := by
  induction above generalizing parts with
  | nil =>
    cases parts with
    | nil => exact ⟨[], List.nil_sublist _, .nil⟩
    | cons part parts => simp [foundAbove] at found
  | cons h above ih =>
    cases parts with
    | nil => exact ⟨[], List.nil_sublist _, .nil⟩
    | cons part parts =>
      rw [foundAbove] at found
      split at found
      · rename_i here
        obtain ⟨chosen, sub, hold⟩ := ih found
        exact ⟨h :: chosen, sub.cons_cons h, .cons here hold⟩
      · obtain ⟨chosen, sub, hold⟩ := ih found
        exact ⟨chosen, sub.cons h, hold⟩

/-- The exchange: a part that could take a farther element takes this one, and
the rest of the choice lies above it all the same. -/
theorem foundAbove_of_sublist {p : Page} {parts : List Part} {above chosen : List Handle}
    (sub : chosen.Sublist above) (hold : HoldTogether p parts chosen) :
    foundAbove p parts above = true := by
  induction above generalizing parts chosen with
  | nil =>
    rw [List.sublist_nil.mp sub] at hold
    cases hold
    rfl
  | cons h above ih =>
    cases hold with
    | nil => simp [foundAbove]
    | @cons part c parts chosen here hold =>
      rw [foundAbove]
      split
      · have rest : chosen.Sublist above := by
          cases sub with
          | cons _ sub => exact (List.sublist_cons_self c chosen).trans sub
          | cons_cons _ sub => exact sub
        exact ih rest hold
      · rename_i passed
        cases sub with
        | cons _ sub => exact ih sub (.cons here hold)
        | cons_cons _ sub => exact absurd here passed

theorem foundAbove_iff {p : Page} {parts : List Part} {above : List Handle} :
    foundAbove p parts above = true ↔ ∃ chosen, chosen.Sublist above ∧ HoldTogether p parts chosen :=
  ⟨sublist_of_foundAbove, fun ⟨_, sub, hold⟩ => foundAbove_of_sublist sub hold⟩

/-- The last part holds of the element, and the others, from left to right, hold of proper
ancestors of which each is above the next. -/
def Matches (selector : String) (p : Page) (h : Handle) : Prop :=
  ∃ outer last, parts selector = outer ++ [last] ∧ last.holdsOf p h = true ∧
    ∃ chain : List Handle, (∀ a ∈ chain, p.Above a h) ∧ chain.IsChain p.Above ∧
      List.Forall₂ (fun part a => part.holdsOf p a = true) outer chain

theorem selects_iff_matches {selector : String} {p : Page} {h : Handle} :
    selects selector p h = true ↔ Matches selector p h := by
  constructor
  · intro selected
    cases shape : (parts selector).reverse with
    | nil => simp [selects, shape, holds] at selected
    | cons last nearest =>
      simp only [selects, shape, holds, Bool.and_eq_true] at selected
      obtain ⟨chosen, sub, hold⟩ := foundAbove_iff.mp selected.2
      refine ⟨nearest.reverse, last, ?_, selected.1, chosen.reverse, ?_, ?_, ?_⟩
      · rw [← List.reverse_reverse (parts selector), shape, List.reverse_cons]
      · intro a ha
        exact Page.mem_ancestors_iff.mp (sub.mem (List.mem_reverse.mp ha))
      · exact List.isChain_reverse.mpr ((p.isWalk_ancestors.pairwise h).sublist sub).isChain
      · exact List.rel_reverse hold
  · rintro ⟨outer, last, shape, here, chain, above, up, hold⟩
    have climb : (h :: chain.reverse).IsChain (Reached p.parent?) := by
      refine List.isChain_cons.mpr ⟨?_, List.isChain_reverse.mpr up⟩
      intro a ha
      exact above a (List.mem_reverse.mp (List.mem_of_mem_head? ha))
    simp only [selects, shape, List.reverse_append, List.reverse_singleton, List.singleton_append,
      holds, Bool.and_eq_true]
    exact ⟨here, foundAbove_iff.mpr ⟨_, p.isWalk_ancestors.sublist climb, List.rel_reverse hold⟩⟩

instance (selector : String) (p : Page) (h : Handle) : Decidable (Matches selector p h) :=
  decidable_of_iff _ selects_iff_matches

theorem decide_matches (selector : String) (p : Page) (h : Handle) :
    decide (Matches selector p h) = selects selector p h :=
  Bool.eq_iff_iff.mpr (decide_eq_true_iff.trans selects_iff_matches.symm)

/-- A selector selects an element exactly when its last part holds of the
element and the others, from left to right, hold of proper ancestors of which
each is above the next. -/
theorem selects_iff_exists_ancestors (selector : String) (p : Page) (h : Handle) :
    selects selector p h = true ↔
      ∃ outer last, parts selector = outer ++ [last] ∧ last.holdsOf p h = true ∧
        ∃ chain : List Handle, (∀ a ∈ chain, p.Above a h) ∧ chain.IsChain p.Above ∧
          List.Forall₂ (fun part a => part.holdsOf p a = true) outer chain :=
  selects_iff_matches

end AuthoredStyle.Selector
