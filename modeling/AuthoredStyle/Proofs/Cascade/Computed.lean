import AuthoredStyle.Cascade.Computed
import AuthoredStyle.Proofs.Text.Trim

/-!
# Computed values one by one

Each property worth extracting that is not composed from others has its own value, which
depends on the element's font size and on nothing else that is computed for the element.
-/

namespace AuthoredStyle.Cascade

open Value (px?)

variable {tag : String} {declared : Dict String} {parent : Option (Dict String)}

/-- The font size of an element, in pixels. -/
def ownSize (declared : Dict String) (parent : Option (Dict String)) : Float :=
  let parentValue := parent.bind (·.get? "font-size")
  fontSize (declared.get? "font-size")
    ((parentValue.bind fun v => px? v.toList).getD rootFontSize)

variable [Libraries]

theorem get?_computedValues {p : String} (known : p ∈ Property.important)
    (single : p ∉ "font-size" :: composed) :
    (computedValues tag declared parent).get? p =
      some (ownValue tag declared parent (ownSize declared parent) p) := by
  rw [List.mem_cons, not_or] at single
  have alone :
      p ∈ Property.important.filter fun p => !(p = "font-size" || composed.contains p) := by
    simp [known, single]
  rw [computedValues, Dict.get?_foldl_insert_other _ _ single.2, Dict.ofList, List.foldl_cons,
    Dict.get?_foldl_insert_map, if_pos alone, ownSize]

theorem get?_computedValues_fontSize :
    (computedValues tag declared parent).get? "font-size" =
      some (pixels (ownSize declared parent)) := by
  rw [computedValues, Dict.get?_foldl_insert_other _ _ (by decide), Dict.ofList, List.foldl_cons,
    Dict.get?_foldl_insert_map, if_neg (by simp), Dict.get?_insert, if_pos rfl, ownSize]

/-- A declared value other than the keywords that point elsewhere is reported. -/
theorem ownValue_of_declared {p value : String} {size : Float} (said : declared.get? p = some value)
    (plain : String.ofList (Text.trim value.toList) ∉ ["unset", "inherit", "initial"]) :
    ownValue tag declared parent size p =
      reported p (String.ofList (Text.trim value.toList)) size := by
  simp only [List.mem_cons, List.not_mem_nil, or_false, not_or] at plain
  rw [ownValue, said, Option.map_some]
  split <;> simp_all

/-- What an inherited property gets when nothing declares it. -/
theorem ownValue_of_silent {p : String} {size : Float} (silent : declared.get? p = none)
    (inherits : Property.isInherited p = true) :
    ownValue tag declared parent size p =
      (parent.bind (·.get? p)).getD (Property.initial tag p) := by
  rw [ownValue, silent, Option.map_none]
  simp [inherits]

end AuthoredStyle.Cascade
