import AuthoredStyle.Value.Normal

/-!
# The characters of written numbers

A number with a fixed count of places, and a ratio cut from one, is written with
digits, a sign and a point, or with the letters of `NaN` and `inf`. A ratio is never
written as nothing.
-/

namespace AuthoredStyle

namespace Decimal

def IsFigure (c : Char) : Prop := c.isDigit = true ∨ c ∈ ['-', '.', 'N', 'a', 'i', 'n', 'f']

instance (c : Char) : Decidable (IsFigure c) := inferInstanceAs (Decidable (_ ∨ _))

theorem isFigure_of_mem_pointed {places n : Nat} {c : Char} (h : c ∈ pointed places n) :
    IsFigure c := by
  have padded : ∀ c ∈ List.replicate (places + 1 - (Nat.toDigits 10 n).length) '0' ++
      Nat.toDigits 10 n, IsFigure c := by
    intro c hc
    rcases List.mem_append.mp hc with hc | hc
    · rw [List.eq_of_mem_replicate hc]
      decide
    · exact .inl (Nat.isDigit_of_mem_toDigits (by decide) (by decide) hc)
  rw [pointed] at h
  split at h
  · exact padded c h
  · rcases List.mem_append.mp h with h | h
    · exact padded c (List.mem_of_mem_take h)
    · rcases List.mem_cons.mp h with rfl | h
      · decide
      · exact padded c (List.mem_of_mem_drop h)

theorem isFigure_of_mem_signed {negative : Bool} {s : List Char} {c : Char}
    (hs : ∀ c ∈ s, IsFigure c) (h : c ∈ signed negative s) : IsFigure c := by
  cases negative with
  | false => exact hs c h
  | true =>
    rcases List.mem_cons.mp h with rfl | h
    · decide
    · exact hs c h

theorem isFigure_of_mem_fixed {places : Nat} {x : Float} {c : Char}
    (h : c ∈ (fixed places x).toList) : IsFigure c := by
  rw [fixed, String.toList_ofList] at h
  split at h
  · exact (by simp [IsFigure] : ∀ c ∈ ['N', 'a', 'N'], IsFigure c) c h
  · exact isFigure_of_mem_signed (by simp [IsFigure] : ∀ c ∈ ['i', 'n', 'f'], IsFigure c) h
  · exact isFigure_of_mem_signed (fun c hc => isFigure_of_mem_pointed hc) h

end Decimal

namespace Value

open Decimal (IsFigure)

theorem isFigure_of_mem_ratioText (x : Float) : ∀ c ∈ (ratioText x).toList, IsFigure c := by
  have cut : ∀ c ∈ dropPoint (dropZeros (Decimal.fixed 4 x).toList), IsFigure c := by
    intro c hc
    rw [dropPoint, List.mem_reverse] at hc
    have inZeros := List.mem_reverse.mp ((List.dropWhile_sublist _).subset hc)
    rw [dropZeros, List.mem_reverse] at inZeros
    have inFixed := List.mem_reverse.mp ((List.dropWhile_sublist _).subset inZeros)
    exact Decimal.isFigure_of_mem_fixed inFixed
  rw [ratioText]
  split
  · exact (by simp [IsFigure] : ∀ c ∈ ['0'], IsFigure c)
  · exact (by simp [IsFigure] : ∀ c ∈ ['0'], IsFigure c)
  · simpa using cut

theorem ratioText_ne_empty (x : Float) : ratioText x ≠ "" := by
  rw [ratioText]
  split
  · decide
  · decide
  · rename_i some _
    exact some

end Value

end AuthoredStyle
