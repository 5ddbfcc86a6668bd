import Mathlib.Data.List.Chain
import Mathlib.Logic.Relation

/-!
# Walks along links

A link leads from an item to at most one other, and the walk of an item lists
everything that links lead to from it, nearest first. Three facts are used of
every walk: it holds what can be reached in at least one step, it is ordered by
reachability, and each sequence of items of which each is reached from the one
before it stands in the walk in order.

Nothing is assumed about cycles: an item that has a walk has no cycle ahead.
-/

namespace AuthoredStyle

variable {α : Type} {next : α → Option α} {walk : α → List α}

/-- Links lead from the first item to the second in at least one step. -/
def Reached (next : α → Option α) : α → α → Prop :=
  Relation.TransGen fun a b => next a = some b

structure IsWalk (next : α → Option α) (walk : α → List α) : Prop where
  stop : ∀ {a}, next a = none → walk a = []
  step : ∀ {a b}, next a = some b → walk a = b :: walk b

namespace IsWalk

theorem reached_of_mem (w : IsWalk next walk) {a b : α} (hb : b ∈ walk a) : Reached next a b := by
  generalize e : walk a = visited at hb
  induction visited generalizing a with
  | nil => simp at hb
  | cons c rest ih =>
    cases link : next a with
    | none => simp [w.stop link] at e
    | some d =>
      rw [w.step link] at e
      obtain ⟨rfl, tail⟩ := List.cons.inj e
      rcases List.mem_cons.mp hb with rfl | hb
      · exact .single link
      · exact .head link (ih tail hb)

/-- Behind an item of a walk stands the walk of that item. -/
theorem exists_split (w : IsWalk next walk) {a b : α} (reached : Reached next a b) :
    ∃ nearer, walk a = nearer ++ b :: walk b := by
  induction reached using Relation.TransGen.head_induction_on with
  | single link => exact ⟨[], w.step link⟩
  | @head a c link _ ih =>
    obtain ⟨nearer, split⟩ := ih
    exact ⟨c :: nearer, by rw [w.step link, split, List.cons_append]⟩

theorem mem_iff (w : IsWalk next walk) {a b : α} : b ∈ walk a ↔ Reached next a b := by
  constructor
  · exact w.reached_of_mem
  · intro reached
    obtain ⟨nearer, split⟩ := w.exists_split reached
    simp [split]

theorem pairwise (w : IsWalk next walk) (a : α) : (walk a).Pairwise (Reached next) := by
  generalize e : walk a = visited
  induction visited generalizing a with
  | nil => exact .nil
  | cons c rest ih =>
    cases link : next a with
    | none => simp [w.stop link] at e
    | some d =>
      rw [w.step link] at e
      obtain ⟨rfl, tail⟩ := List.cons.inj e
      refine .cons ?_ (ih d tail)
      intro b hb
      exact w.reached_of_mem (tail ▸ hb)

theorem sublist (w : IsWalk next walk) {a : α} {stops : List α}
    (onward : (a :: stops).IsChain (Reached next)) : stops.Sublist (walk a) := by
  induction stops generalizing a with
  | nil => exact List.nil_sublist _
  | cons b stops ih =>
    obtain ⟨reached, rest⟩ := List.isChain_cons_cons.mp onward
    obtain ⟨nearer, split⟩ := w.exists_split reached
    rw [split]
    exact ((ih rest).cons_cons b).trans (List.sublist_append_right _ _)

end IsWalk

end AuthoredStyle
