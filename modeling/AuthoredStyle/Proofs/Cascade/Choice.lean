import AuthoredStyle.Cascade.Match
import AuthoredStyle.Proofs.Dom.Kinship

/-!
# Committed matching and free choice

By its meaning a complex selector selects an element when each compound to the
left can be given an element of its own, related by its combinator to the one
before. The matcher gives every compound the nearest candidate and never takes
another one.

What the matcher accepts is always selected. The converse depends on the
combinators alone: an ancestor taken too near can only be wrong for a combinator
other than another descendant, and a sibling taken too near only for an adjacent
one. Where neither order occurs, nothing is lost, and where one occurs some tree
and some compounds show the loss.
-/

namespace AuthoredStyle.Cascade

open Dom (Element Place Tree)

/-- What a combinator says of the place to its left and the one to its right. -/
def Combinator.Relates (how : Combinator) (q p : Place) : Prop :=
  match how with
  | descendant => q.Ancestor p
  | child => p.parent? = some q
  | adjacent => p.previous? = some q
  | sibling => q.Precedes p

/-- Places for the compounds to the left of one that holds at `p`, nearest first. -/
inductive Chosen : Place → List (Combinator × Compound) → List Place → Prop where
  | nil {p : Place} : Chosen p [] []
  | cons {p q : Place} {how : Combinator} {compound : Compound}
      {left : List (Combinator × Compound)} {chosen : List Place} :
      how.Relates q p → compound.holdsOf q.element = true → Chosen q left chosen →
        Chosen p ((how, compound) :: left) (q :: chosen)

/-- The selector selects an element of the tree: there are elements of the tree
for its compounds, related as its combinators say. -/
def Complex.SelectsIn (t : Tree) (s : Complex) (p : Place) : Prop :=
  s.key.holdsOf p.element = true ∧
    ∃ chosen : List Place, (∀ q ∈ chosen, q ∈ t.places) ∧ Chosen p s.left chosen

theorem mem_places_iff {how : Combinator} {p q : Place} : q ∈ how.places p ↔ how.Relates q p := by
  cases how with
  | descendant => exact Place.isWalk_ancestors.mem_iff
  | child => simp [Combinator.places, Combinator.Relates]
  | adjacent =>
    simp [Combinator.places, Combinator.Relates, Place.previousSiblings_take_one]
  | sibling => exact Place.isWalk_previousSiblings.mem_iff

theorem Combinator.Relates.mem_tree {how : Combinator} {t : Tree} {p q : Place}
    (related : how.Relates q p) (hp : p ∈ t.places) : q ∈ t.places := by
  cases how with
  | descendant => exact Place.Ancestor.mem_places related hp
  | child => exact Dom.parent?_mem_places hp related
  | adjacent => exact Dom.previous?_mem_places hp related
  | sibling => exact Place.Precedes.mem_places related hp

theorem Chosen.mem_tree {t : Tree} {p : Place} {left : List (Combinator × Compound)}
    {chosen : List Place} (h : Chosen p left chosen) (hp : p ∈ t.places) :
    ∀ q ∈ chosen, q ∈ t.places := by
  induction h with
  | nil => simp
  | cons related _ _ ih =>
    have hq := related.mem_tree hp
    intro r hr
    rcases List.mem_cons.mp hr with rfl | hr
    · exact hq
    · exact ih hq r hr

theorem Complex.selectsIn_iff {t : Tree} {s : Complex} {p : Place} (hp : p ∈ t.places) :
    s.SelectsIn t p ↔ s.key.holdsOf p.element = true ∧ ∃ chosen, Chosen p s.left chosen := by
  constructor
  · rintro ⟨key, chosen, -, h⟩
    exact ⟨key, chosen, h⟩
  · rintro ⟨key, chosen, h⟩
    exact ⟨key, chosen, h.mem_tree hp, h⟩

/-! ## Acceptance is sound -/

theorem exists_chosen_of_holdsLeft {left : List (Combinator × Compound)} {p : Place}
    (accepted : holdsLeft left p = true) : ∃ chosen, Chosen p left chosen := by
  induction left generalizing p with
  | nil => exact ⟨[], .nil⟩
  | cons pair left ih =>
    obtain ⟨how, compound⟩ := pair
    rw [holdsLeft] at accepted
    split at accepted
    · rename_i q found
      obtain ⟨chosen, rest⟩ := ih accepted
      have related := mem_places_iff.mp (List.mem_of_find?_eq_some found)
      exact ⟨q :: chosen, .cons related (by simpa using List.find?_some found) rest⟩
    · simp at accepted

/-! ## Where the nearest candidate is as good as any -/

/-- Taking the nearest candidate for the first combinator may rule out what the
second one, further left, needs. -/
def Combinator.Hinders : Combinator → Combinator → Prop
  | descendant, descendant => False
  | descendant, _ => True
  | sibling, adjacent => True
  | _, _ => False

instance : DecidableRel Combinator.Hinders := fun near far => by
  cases near <;> cases far <;> unfold Combinator.Hinders <;> infer_instance

/-- No combinator hinders its left neighbour; nearest first. -/
def Committed (hows : List Combinator) : Prop :=
  ∀ near far, [near, far] <:+: hows → ¬ near.Hinders far

/-- Of two places that a combinator allows, the second one is no nearer. -/
def Combinator.NoNearer (how : Combinator) (q q' : Place) : Prop :=
  q' = q ∨ match how with
    | descendant => q'.Ancestor q
    | sibling => q'.Precedes q
    | _ => False

theorem noNearer_of_find? {how : Combinator} {p q q' : Place} {test : Place → Bool}
    (found : (how.places p).find? test = some q) (related : how.Relates q' p)
    (passes : test q' = true) : how.NoNearer q q' := by
  obtain ⟨-, nearer, farther, split, failed⟩ := List.find?_eq_some_iff_append.mp found
  have hq' := mem_places_iff.mpr related
  have behind : q' = q ∨ q' ∈ farther := by
    rw [split] at hq'
    rcases List.mem_append.mp hq' with near | far
    · have := failed q' near
      rw [passes] at this
      cases this
    · exact List.mem_cons.mp far
  have ordered {R : Place → Place → Prop} (h : (how.places p).Pairwise R) :
      ∀ r ∈ farther, R q r := by
    rw [split] at h
    exact (List.pairwise_cons.mp (List.pairwise_append.mp h).2.1).1
  refine behind.imp_right fun far => ?_
  have several : 1 < (how.places p).length := by
    have := List.length_pos_of_mem far
    rw [split, List.length_append, List.length_cons]
    omega
  cases how with
  | descendant => exact ordered (Place.isWalk_ancestors.pairwise p) q' far
  | sibling => exact ordered (Place.isWalk_previousSiblings.pairwise p) q' far
  | child =>
    rw [Combinator.places] at several
    cases parent : p.parent? <;> simp [parent] at several
  | adjacent =>
    rw [Combinator.places, List.length_take] at several
    omega

/-- The exchange: what stands in the second relation to a place no nearer stands
in it to the nearest place too, unless the combinators hinder each other. -/
theorem Combinator.Relates.exchange {near far : Combinator} {q q' r : Place}
    (related : far.Relates r q') (free : ¬ near.Hinders far) (h : near.NoNearer q q') :
    far.Relates r q := by
  rcases h with rfl | h
  · exact related
  cases near with
  | child => exact h.elim
  | adjacent => exact h.elim
  | descendant =>
    cases far with
    | descendant => exact Relation.TransGen.trans h related
    | child => exact (free trivial).elim
    | adjacent => exact (free trivial).elim
    | sibling => exact (free trivial).elim
  | sibling =>
    cases far with
    | descendant => exact (Place.Precedes.ancestor_iff h).mp related
    | child => exact (Place.Precedes.parent?_eq h).symm.trans related
    | adjacent => exact (free trivial).elim
    | sibling => exact Relation.TransGen.trans h related

theorem Committed.tail {how : Combinator} {hows : List Combinator}
    (h : Committed (how :: hows)) : Committed hows :=
  fun near far inside => h near far (List.infix_cons inside)

theorem holdsLeft_of_chosen {left : List (Combinator × Compound)} {p : Place}
    {chosen : List Place} (committed : Committed (left.map (·.1))) (h : Chosen p left chosen) :
    holdsLeft left p = true := by
  induction left generalizing p chosen with
  | nil => rfl
  | cons pair left ih =>
    cases h with
    | @cons _ q' how compound _ chosen related holds rest =>
      rw [holdsLeft]
      have present := mem_places_iff.mpr related
      cases found : (how.places p).find? fun q => compound.holdsOf q.element with
      | none => exact absurd holds (List.find?_eq_none.mp found q' present)
      | some q =>
        have noNearer := noNearer_of_find? found related holds
        cases rest with
        | nil => rfl
        | @cons _ r far compound' left chosen related' holds' rest =>
          have free : ¬ how.Hinders far :=
            committed how far (List.IsPrefix.isInfix ⟨left.map (·.1), rfl⟩)
          exact ih committed.tail (.cons (related'.exchange free noNearer) holds' rest)

end AuthoredStyle.Cascade
