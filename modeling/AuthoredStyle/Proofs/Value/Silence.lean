import AuthoredStyle.StyleTree.Node
import AuthoredStyle.Proofs.Decimal.Figures
import AuthoredStyle.Proofs.Value.Colour

/-!
# Values that say nothing

A value is silent for a property when it is empty, a default of the property, or one of
the words that mean nothing anywhere. Values are looked at before they are rewritten; no
rewriting makes a silent value of one that is not. A rewritten colour shows a hash, which
no default has, and the silent values of line heights and letter spacings are words with
an `o`, which no ratio has.
-/

namespace AuthoredStyle

def IsSilent (property value : String) : Prop :=
  value = "" ∨ value ∈ Property.defaults property ∨ value ∈ emptyValues

instance (property value : String) : Decidable (IsSilent property value) :=
  inferInstanceAs (Decidable (_ ∨ _ ∨ _))

/-- What counts is the trimmed value; an element that is not displayed is never silent. -/
theorem meaningful?_eq_some_iff {property value said : String} :
    meaningful? property value = some said ↔
      said = String.ofList (Text.trim value.toList) ∧
        (¬ IsSilent property said ∨ property = "display" ∧ said = "none") := by
  rw [meaningful?]
  generalize String.ofList (Text.trim value.toList) = trimmed
  have silent : ((Property.defaults property).contains trimmed ||
      emptyValues.contains trimmed) = true ↔
        trimmed ∈ Property.defaults property ∨ trimmed ∈ emptyValues := by simp
  constructor
  · intro told
    split at told
    · cases told
    · next visible =>
      split at told
      · next hidden =>
        cases told
        exact ⟨rfl, .inr hidden⟩
      · split at told
        · cases told
        · next other =>
          cases told
          refine ⟨rfl, .inl ?_⟩
          rintro (empty | same)
          · exact visible empty
          · exact other (silent.mpr same)
  · rintro ⟨rfl, speaks | ⟨rfl, rfl⟩⟩
    · rw [IsSilent, not_or] at speaks
      rw [if_neg speaks.1, if_neg (mt silent.mp speaks.2), ite_self]
    · rfl

/-! ## Silent values and their letters -/

theorem hash_not_mem_of_isSilent {property value : String} (coloured : property ∈ Property.coloured)
    (silent : IsSilent property value) : '#' ∉ value.toList := by
  have defaults : ∀ p ∈ Property.coloured, ∀ w ∈ Property.defaults p, '#' ∉ w.toList := by
    decide +kernel
  rcases silent with rfl | silent | silent
  · exact List.not_mem_nil
  · exact defaults property coloured value silent
  · exact (by decide : ∀ w ∈ emptyValues, '#' ∉ w.toList) value silent

theorem letter_mem_of_isSilent {property value : String}
    (scaled : property ∈ ["line-height", "letter-spacing"]) (some : value ≠ "")
    (silent : IsSilent property value) : 'o' ∈ value.toList := by
  have defaults : ∀ p ∈ ["line-height", "letter-spacing"], ∀ w ∈ Property.defaults p,
      'o' ∈ w.toList := by decide +kernel
  rcases silent with rfl | silent | silent
  · exact absurd rfl some
  · exact defaults property scaled value silent
  · exact (by decide : ∀ w ∈ emptyValues, 'o' ∈ w.toList) value silent

namespace Value

theorem hexColour_eq_self_of_isSilent {property value : String}
    (coloured : property ∈ Property.coloured) (silent : IsSilent property (hexColour value)) :
    hexColour value = value := by
  have plain := hash_not_mem_of_isSilent coloured silent
  rw [hexColour, String.toList_ofList] at plain
  rw [hexColour, hexColours_eq_self_of_not_mem plain, String.ofList_toList]

/-- A line height is a ratio without a unit. -/
theorem unitless_eq (value : String) (fontSize : Float) :
    unitless value fontSize = relative value fontSize fun x => ratioText x ++ "" := by
  simp [unitless]

/-- A length in terms of the font size, written as a ratio and a unit, is never silent. -/
theorem relative_eq_self_of_isSilent {property value unit : String} (fontSize : Float)
    (scaled : property ∈ ["line-height", "letter-spacing"]) (plain : 'o' ∉ unit.toList)
    (silent : IsSilent property (relative value fontSize fun x => ratioText x ++ unit)) :
    (relative value fontSize fun x => ratioText x ++ unit) = value := by
  rw [relative] at silent ⊢
  split
  · rename_i px read
    rw [read] at silent
    split
    · rename_i positive
      dsimp only at silent
      rw [if_pos positive] at silent
      have some : ratioText (px / fontSize) ++ unit ≠ "" := by
        simp [ratioText_ne_empty]
      have shown := letter_mem_of_isSilent scaled some silent
      rw [String.toList_append, List.mem_append] at shown
      rcases shown with shown | shown
      · exact absurd (isFigure_of_mem_ratioText _ _ shown) (by decide)
      · exact absurd shown plain
    · rfl
  · rfl

/-- What each kind of property does to all of its values. -/
theorem normalize_cases (property : String) (fontSize : Option Float) :
    (property ∈ Property.coloured ∧
        ∀ value, normalize property value fontSize = hexColour value) ∨
      (property = "line-height" ∧
        ∃ size, ∀ value, normalize property value fontSize = unitless value size) ∨
      (property = "letter-spacing" ∧
        ∃ size, ∀ value, normalize property value fontSize = ems value size) ∨
      ∀ value, normalize property value fontSize = value := by
  unfold normalize
  split
  · rename_i coloured
    exact .inl ⟨List.contains_iff_mem.mp coloured, fun _ => rfl⟩
  · refine .inr ?_
    split
    · exact .inl ⟨rfl, _, fun _ => rfl⟩
    · exact .inr (.inl ⟨rfl, _, fun _ => rfl⟩)
    · exact .inr (.inr fun _ => rfl)

/-- Rewriting makes nothing silent: a silent result was there before. -/
theorem normalize_eq_self_of_isSilent {property value : String} {fontSize : Option Float}
    (silent : IsSilent property (normalize property value fontSize)) :
    normalize property value fontSize = value := by
  rcases normalize_cases property fontSize with
    ⟨coloured, same⟩ | ⟨rfl, size, same⟩ | ⟨rfl, size, same⟩ | same
  · rw [same] at silent ⊢
    exact hexColour_eq_self_of_isSilent coloured silent
  · rw [same, unitless_eq] at silent ⊢
    exact relative_eq_self_of_isSilent size (by decide) (by decide) silent
  · rw [same] at silent ⊢
    exact relative_eq_self_of_isSilent size (by decide) (by decide) silent
  · exact same value

end Value

end AuthoredStyle
