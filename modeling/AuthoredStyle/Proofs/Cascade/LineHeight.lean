import AuthoredStyle.Libraries.BuiltIn
import AuthoredStyle.Proofs.Cascade.Computed

/-!
# Line heights without a unit

Elements that stand in one another are styled from the outside in, each with the values of the
one above at hand. A line height that is a bare number becomes a length where it is declared.
What is handed down is that length, not the number, so it no longer follows the font size.
-/

namespace AuthoredStyle.Cascade

theorem not_mem_keywords_of_readFloat? {s : List Char} {n : Float}
    (number : Decimal.readFloat? s = some n) :
    String.ofList s ∉ ["unset", "inherit", "initial"] := by
  have keywords : ∀ k ∈ ["unset", "inherit", "initial"], Decimal.readFloat? k.toList = none := by
    decide +kernel
  intro keyword
  have none := keywords _ keyword
  rw [String.toList_ofList, number] at none
  cases none

section Inheriting

variable [Libraries]

/-! ## Elements in one another -/

/-- A styled element: the font size that its lengths refer to, and its values. -/
structure Styled where
  size : Float
  values : Dict String

/-- An element, given by its tag and its declarations, styled below another one. -/
def Styled.below (parent : Option Styled) (e : String × Dict String) : Styled where
  size := ownSize e.2 (parent.map (·.values))
  values := computedValues e.1 e.2 (parent.map (·.values))

/-- The lowest of the elements, each of which is styled below the one before. -/
def styledDown (parent : Option Styled) (chain : List (String × Dict String)) : Option Styled :=
  chain.foldl (fun parent e => some (.below parent e)) parent

theorem styledDown_append (parent : Option Styled) (above below : List (String × Dict String)) :
    styledDown parent (above ++ below) = styledDown (styledDown parent above) below :=
  List.foldl_append

/-- The size that lengths refer to is the font size that is reported. -/
theorem get?_fontSize_of_styledDown {parent : Option Styled} {chain : List (String × Dict String)}
    {e : Styled} (some : chain ≠ []) (styled : styledDown parent chain = .some e) :
    e.values.get? "font-size" = .some (pixels e.size) := by
  obtain ⟨front, last, rfl⟩ := (List.eq_nil_or_concat chain).resolve_left some
  rw [List.concat_eq_append, styledDown_append] at styled
  cases styled
  exact get?_computedValues_fontSize

/-! ## Inheritance -/

section Inheritance

variable {p : String} (known : p ∈ Property.important) (single : p ∉ "font-size" :: composed)
include known single

theorem Styled.get?_below_of_silent {source : Styled} {e : String × Dict String} {value : String}
    (inherits : Property.isInherited p = true) (silent : e.2.get? p = none)
    (here : source.values.get? p = some value) :
    (below (some source) e).values.get? p = some value := by
  rw [below, get?_computedValues known single, ownValue_of_silent silent inherits,
    Option.map_some, Option.bind_some, here, Option.getD_some]

/-- As long as nothing declares it, the value is handed down as it is written. -/
theorem exists_styledDown_of_silent (source : Styled) {chain : List (String × Dict String)}
    {value : String} (inherits : Property.isInherited p = true)
    (silent : ∀ e ∈ chain, e.2.get? p = none) (here : source.values.get? p = some value) :
    ∃ lowest, styledDown (some source) chain = some lowest ∧ lowest.values.get? p = some value := by
  induction chain generalizing source with
  | nil => exact ⟨source, rfl, here⟩
  | cons e chain ih =>
    obtain ⟨first, later⟩ := List.forall_mem_cons.mp silent
    exact ih (.below (some source) e) later
      (Styled.get?_below_of_silent known single inherits first here)

end Inheritance

/-! ## Bare numbers -/

/-- Where it is declared, a bare number is a multiple of the font size. -/
theorem Styled.get?_lineHeight {parent : Option Styled} {tag value : String}
    {declared : Dict String} {n : Float} (said : declared.get? "line-height" = some value)
    (number : Decimal.readFloat? (Text.trim value.toList) = some n) :
    (below parent (tag, declared)).values.get? "line-height" =
      some (pixels (n * (below parent (tag, declared)).size)) := by
  rw [below, get?_computedValues (by decide +kernel) (by decide),
    ownValue_of_declared said (not_mem_keywords_of_readFloat? number)]
  simp [reported, number]

/-- A bare number for the line height, declared nowhere further down, becomes a length where it
is declared, and this length is what elements below get. So it is a multiple of an element's own
font size just if it is written the same as the multiple of the declaring element's. -/
theorem lineHeight_scales_iff (above : List (String × Dict String))
    {below : List (String × Dict String)} {tag value : String} {declared : Dict String} {n : Float}
    (said : declared.get? "line-height" = some value)
    (number : Decimal.readFloat? (Text.trim value.toList) = some n)
    (silent : ∀ e ∈ below, e.2.get? "line-height" = none) :
    ∃ source lowest, styledDown none (above ++ [(tag, declared)]) = some source ∧
      styledDown none (above ++ (tag, declared) :: below) = some lowest ∧
        lowest.values.get? "font-size" = some (pixels lowest.size) ∧
        lowest.values.get? "line-height" = some (pixels (n * source.size)) ∧
          (lowest.values.get? "line-height" = some (pixels (n * lowest.size)) ↔
            pixels (n * source.size) = pixels (n * lowest.size)) := by
  let source := Styled.below (styledDown none above) (tag, declared)
  obtain ⟨lowest, found, kept⟩ := exists_styledDown_of_silent (by decide +kernel) (by decide)
    source (by decide) silent (Styled.get?_lineHeight said number)
  have whole : styledDown none (above ++ (tag, declared) :: below) = some lowest := by
    rw [styledDown_append]
    exact found
  refine ⟨source, lowest, styledDown_append _ _ _, whole,
    get?_fontSize_of_styledDown (by simp) whole, kept, ?_⟩
  rw [kept, Option.some.injEq]

end Inheriting

/-- A section with lines one and a half times as high as its font, and a larger paragraph in it. -/
def largerParagraph : List (String × Dict String) :=
  [("section", .ofList [("line-height", "1.5")]), ("p", .ofList [("font-size", "32px")])]

theorem lineHeight_scales_iff_of_largerParagraph :
    ∃ source lowest, styledDown none (largerParagraph.take 1) = some source ∧
      styledDown none largerParagraph = some lowest ∧
        lowest.values.get? "font-size" = some (pixels lowest.size) ∧
        lowest.values.get? "line-height" = some (pixels (1.5 * source.size)) ∧
          (lowest.values.get? "line-height" = some (pixels (1.5 * lowest.size)) ↔
            pixels (1.5 * source.size) = pixels (1.5 * lowest.size)) :=
  have said : (Dict.ofList [("line-height", "1.5")]).get? "line-height" = some "1.5" := by
    decide +kernel
  lineHeight_scales_iff [] said (by decide +kernel) (by decide +kernel)

/-- The paragraph's lines are as high as the section's, too low for its own font. -/
theorem larger_paragraph_keeps_lineHeight :
    (styledDown none largerParagraph).map (fun e =>
      (e.values.get? "line-height", pixels (1.5 * e.size))) = some (some "24px", "48px") := by
  have declared : (Dict.ofList [("line-height", "1.5")]).get? "line-height" = some "1.5" := by
    decide +kernel
  let source : Styled := .below none ("section", .ofList [("line-height", "1.5")])
  let paragraph : Styled := .below (some source) ("p", .ofList [("font-size", "32px")])
  have said : source.values.get? "line-height" = some (pixels (1.5 * source.size)) :=
    Styled.get?_lineHeight declared (by decide +kernel)
  have kept : paragraph.values.get? "line-height" = some (pixels (1.5 * source.size)) :=
    Styled.get?_below_of_silent (by decide +kernel) (by decide) (by decide) (by decide +kernel) said
  have small : pixels (1.5 * source.size) = "24px" := by decide +kernel
  have large : pixels (1.5 * paragraph.size) = "48px" := by decide +kernel
  change some (paragraph.values.get? "line-height", pixels (1.5 * paragraph.size)) = _
  rw [kept, small, large]

end AuthoredStyle.Cascade
