import AuthoredStyle.Sheet.Comment
import Mathlib.Data.List.Chain

/-!
# Texts without comments

A text in which no comment opens is kept whole, and such texts can be put together
wherever the border does not make an opening of its own.
-/

namespace AuthoredStyle.Sheet

def OpensNoComment (text : List Char) : Prop := ¬ ['/', '*'] <:+: text

theorem opensNoComment_iff {text : List Char} :
    OpensNoComment text ↔ text.IsChain fun c d => ¬ (c = '/' ∧ d = '*') := by
  induction text with
  | nil => simp [OpensNoComment]
  | cons c text ih =>
    cases text with
    | nil =>
      simp only [OpensNoComment, List.isChain_singleton, iff_true]
      intro h
      simpa using h.length_le
    | cons d rest =>
      rw [List.isChain_cons_cons, ← ih, OpensNoComment, OpensNoComment, List.infix_cons_iff]
      have start : ['/', '*'] <+: c :: d :: rest ↔ c = '/' ∧ d = '*' := by
        simp [List.cons_prefix_cons, eq_comm]
      rw [start, not_or]

theorem OpensNoComment.append {a b : List Char} (ha : OpensNoComment a) (hb : OpensNoComment b)
    (border : a.getLast? ≠ some '/' ∨ b.head? ≠ some '*') : OpensNoComment (a ++ b) := by
  rw [opensNoComment_iff] at ha hb ⊢
  refine List.isChain_append.mpr ⟨ha, hb, ?_⟩
  rintro c hc d hd ⟨rfl, rfl⟩
  rcases border with last | first
  · exact last hc
  · exact first hd

theorem opensNoComment_of_not_mem {text : List Char} (h : '*' ∉ text) : OpensNoComment text :=
  fun opens => h (opens.subset (by simp))

theorem dropComments_eq_self {text : List Char} (h : OpensNoComment text) :
    dropComments text = text := by
  rw [opensNoComment_iff] at h
  rw [dropComments]
  induction text with
  | nil => rfl
  | cons c text ih =>
    cases text with
    | nil => rfl
    | cons d rest =>
      obtain ⟨here, later⟩ := List.isChain_cons_cons.mp h
      rw [uncomment, if_neg here, ih later]
      rfl

/-- No comment opens in it, and none at its end, whatever stands behind. -/
structure Settled (text : List Char) : Prop where
  opensNone : OpensNoComment text
  noSlash : text.getLast? ≠ some '/'

theorem Settled.append {a b : List Char} (ha : Settled a) (hb : Settled b) : Settled (a ++ b) where
  opensNone := ha.opensNone.append hb.opensNone (.inl ha.noSlash)
  noSlash := by
    by_cases none : b = []
    · rw [none, List.append_nil]
      exact ha.noSlash
    · rw [List.getLast?_append_of_ne_nil _ none]
      exact hb.noSlash

theorem settled_of_not_mem {text : List Char} (h : '/' ∉ text) : Settled text :=
  ⟨fun opens => h (opens.subset (by simp)), fun last => h (List.mem_of_getLast? last)⟩

theorem OpensNoComment.settled_snoc {text : List Char} (h : OpensNoComment text) {c : Char}
    (noStar : c ≠ '*') (noSlash : c ≠ '/') : Settled (text ++ [c]) where
  opensNone := by
    have alone : Settled [c] := settled_of_not_mem (by simpa using noSlash.symm)
    exact h.append alone.opensNone (.inr (by simpa using noStar))
  noSlash := by simpa using noSlash

/-- Lines in which no comment opens make a text in which none opens. -/
theorem opensNoComment_lines {lines : List (List Char)} (h : ∀ l ∈ lines, OpensNoComment l) :
    OpensNoComment (lines.flatMap (· ++ ['\n'])) := by
  suffices whole : Settled (lines.flatMap (· ++ ['\n'])) from whole.opensNone
  induction lines with
  | nil => exact settled_of_not_mem List.not_mem_nil
  | cons l lines ih =>
    have first := (h l List.mem_cons_self).settled_snoc (c := '\n') (by decide) (by decide)
    exact first.append (ih fun m hm => h m (List.mem_cons_of_mem l hm))

end AuthoredStyle.Sheet
