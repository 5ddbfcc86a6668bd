import AuthoredStyle.Decimal.Numeral
import Mathlib.Data.List.TakeWhile

/-!
# The characters of numerals

Whatever reads as a number is written with digits, signs, points and the letters of an
exponent or of the two words for what is no finite number.
-/

namespace AuthoredStyle.Decimal

/-- A digit, a sign, a point or a letter that some numeral has. -/
def IsNumeralChar (c : Char) : Prop :=
  c.isDigit = true ∨ c.toLower ∈ ['-', '+', '.', 'e', 'n', 'a', 'i', 'f', 't', 'y']

instance (c : Char) : Decidable (IsNumeralChar c) := inferInstanceAs (Decidable (_ ∨ _))

/-- Written with characters of numerals only. -/
def IsNumeralText (s : List Char) : Prop := ∀ c ∈ s, IsNumeralChar c

theorem IsNumeralText.cons {c : Char} {s : List Char} (first : IsNumeralChar c)
    (rest : IsNumeralText s) : IsNumeralText (c :: s) := List.forall_mem_cons.mpr ⟨first, rest⟩

theorem IsNumeralText.append {s t : List Char} (hs : IsNumeralText s) (ht : IsNumeralText t) :
    IsNumeralText (s ++ t) := List.forall_mem_append.mpr ⟨hs, ht⟩

theorem isNumeralText_of_unsign {s : List Char} (rest : IsNumeralText (unsign s).2) :
    IsNumeralText s := by
  unfold unsign at rest
  split at rest
  · exact rest.cons (by decide)
  · exact rest.cons (by decide)
  · exact rest

theorem isNumeralText_takeWhile (s : List Char) : IsNumeralText (s.takeWhile Char.isDigit) :=
  fun _ hc => .inl (List.mem_takeWhile_imp hc)

theorem isNumeralText_of_whole? {s : List Char} (read : (whole? s).isSome) : IsNumeralText s := by
  rw [whole?] at read
  split at read
  · cases read
  · rename_i readable
    simp only [Bool.or_eq_true, Bool.not_eq_true', not_or, Bool.not_eq_false,
      List.all_eq_true] at readable
    exact fun c hc => .inl (readable.2 c hc)

namespace Numeral

theorem isNumeralText_of_exponent? {s : List Char} (read : (exponent? s).isSome) :
    IsNumeralText s := by
  cases s with
  | nil => exact fun _ hc => absurd hc List.not_mem_nil
  | cons c s =>
    rw [exponent?] at read
    split at read
    · rename_i letter
      have first : IsNumeralChar c := by rcases letter with rfl | rfl <;> decide
      have digits : (whole? (unsign s).2).isSome := by
        cases found : whole? (unsign s).2 with
        | none => simp [found] at read
        | some n => rfl
      exact (isNumeralText_of_unsign (isNumeralText_of_whole? digits)).cons first
    · cases read

theorem isNumeralText_of_magnitude? {negative : Bool} {s : List Char}
    (read : (magnitude? negative s).isSome) : IsNumeralText s := by
  rw [← List.takeWhile_append_dropWhile (p := Char.isDigit) (l := s)]
  refine (isNumeralText_takeWhile s).append ?_
  simp only [magnitude?] at read
  generalize s.dropWhile Char.isDigit = behind at read ⊢
  split at read
  · rename_i rest
    split at read
    · cases read
    · rw [Option.isSome_map] at read
      rw [← List.takeWhile_append_dropWhile (p := Char.isDigit) (l := rest)]
      exact ((isNumeralText_takeWhile rest).append (isNumeralText_of_exponent? read)).cons
        (by decide)
  · split at read
    · cases read
    · rw [Option.isSome_map] at read
      exact isNumeralText_of_exponent? read

theorem isNumeralText_of_lower {s : List Char} {word : String}
    (same : String.ofList (Text.lower s) = word)
    (letters : ∀ c ∈ word.toList, c ∈ ['n', 'a', 'i', 'f', 't', 'y']) : IsNumeralText s := by
  intro c hc
  have inWord : c.toLower ∈ word.toList := by
    rw [← same, String.toList_ofList]
    exact List.mem_map_of_mem hc
  have letter := letters _ inWord
  exact .inr (List.mem_append_right ['-', '+', '.', 'e'] letter)

theorem isNumeralText_of_read? {s : List Char} (read : (read? s).isSome) : IsNumeralText s := by
  simp only [read?] at read
  refine isNumeralText_of_unsign ?_
  split at read
  · rename_i word
    exact isNumeralText_of_lower word (by simp)
  · rename_i word
    exact isNumeralText_of_lower word (by simp)
  · rename_i word
    exact isNumeralText_of_lower word (by simp)
  · exact isNumeralText_of_magnitude? read

end Numeral

theorem isNumeralText_of_readFloat? {s : List Char} (read : (readFloat? s).isSome) :
    IsNumeralText s := by
  rw [readFloat?, Option.isSome_map] at read
  exact Numeral.isNumeralText_of_read? read

end AuthoredStyle.Decimal
