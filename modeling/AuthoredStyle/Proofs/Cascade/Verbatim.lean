import AuthoredStyle.Libraries.BuiltIn
import AuthoredStyle.Proofs.Cascade.Computed
import AuthoredStyle.Proofs.Decimal.Numeral
import AuthoredStyle.Proofs.Scss.Declaration
import AuthoredStyle.Proofs.Text.Collapse

/-!
# Values that are reported as they are declared

A declared value is cut into its parts, each part that is nought or a length in ems is put in
pixels, and the parts are joined with single spaces. Quotation marks play no role in this. So
a quoted text comes back as it is only if it is single-spaced and no word in it is a length.
-/

namespace AuthoredStyle.Cascade

open Text (Solid SingleSpaced)

/-! ## Parts -/

/-- Without parentheses the parts of a value are its words. -/
theorem componentsFrom_eq_words {part s : List Char} (noParen : '(' ∉ s)
    (visible : ∀ c ∈ part, Text.isBlank c = false) :
    componentsFrom 0 part s = Text.words (part.reverse ++ s) := by
  have whole {part : List Char} (visible : ∀ c ∈ part, Text.isBlank c = false) (some : part ≠ []) :
      Text.words part.reverse = [part.reverse] :=
    Text.words_solid ⟨by simpa using some, by simpa using visible⟩
  induction s generalizing part with
  | nil =>
    rw [componentsFrom, List.append_nil]
    cases part with
    | nil => rfl
    | cons c part => exact (whole visible (List.cons_ne_nil c part)).symm
  | cons c s ih =>
    rw [List.mem_cons, not_or] at noParen
    cases blank : Text.isBlank c with
    | true =>
      rw [componentsFrom, blank, Text.words_append_blank _ s blank, ih noParen.2 (by simp)]
      cases part with
      | nil => rfl
      | cons d part =>
        rw [whole visible (List.cons_ne_nil d part)]
        rfl
    | false =>
      have inner : (if c = '(' then 0 + 1 else if c = ')' then 0 - 1 else 0) = 0 := by
        rw [if_neg (Ne.symm noParen.1)]
        split <;> rfl
      rw [componentsFrom, blank, Bool.and_false, if_neg Bool.false_ne_true, inner,
        ih noParen.2 (List.forall_mem_cons.mpr ⟨blank, visible⟩), List.reverse_cons,
        List.append_assoc]
      rfl

theorem components_eq_words {value : String} (noParen : '(' ∉ value.toList) :
    components value = (Text.words value.toList).map String.ofList := by
  rw [components, componentsFrom_eq_words noParen (by simp), List.reverse_nil, List.nil_append]

/-! ## Lengths -/

theorem toList_pixels (x : Float) :
    (pixels x).toList = (Value.ratioText x).toList ++ ['p', 'x'] := by
  rw [pixels, String.toList_append]
  rfl

theorem solid_pixels (x : Float) : Solid (pixels x).toList := by
  have figures : ∀ c ∈ (Value.ratioText x).toList, Text.isBlank c = false :=
    (Value.isPathWord_ratioText x).solid.2
  rw [toList_pixels]
  exact ⟨by simp, List.forall_mem_append.mpr ⟨figures, by simp [Text.isBlank]⟩⟩

/-- Nought, or a number of ems or root ems. -/
def IsRelative (s : List Char) : Prop :=
  s = ['0'] ∨ ∃ unit ∈ [['r', 'e', 'm'], ['e', 'm']], ∃ number,
    s = number ++ unit ∧ (Decimal.readFloat? number).isSome

theorem IsRelative.ne_pixels {s : List Char} (relative : IsRelative s) (x : Float) :
    (pixels x).toList ≠ s := by
  have last : s.getLast? = some '0' ∨ s.getLast? = some 'm' := by
    rcases relative with rfl | ⟨unit, hu, number, rfl, -⟩
    · exact .inl rfl
    · simp only [List.mem_cons, List.not_mem_nil, or_false] at hu
      rcases hu with rfl | rfl <;> exact .inr (by simp)
  rintro rfl
  rw [toList_pixels] at last
  simp at last

theorem isSome_measured?_iff {unit s : List Char} :
    (measured? unit s).isSome ↔
      ∃ number, s = number ++ unit ∧ (Decimal.readFloat? number).isSome := by
  constructor
  · intro read
    obtain ⟨x, found⟩ := Option.isSome_iff_exists.mp read
    obtain ⟨number, dropped, value⟩ := Option.bind_eq_some_iff.mp found
    exact ⟨number, Text.eq_of_dropEnding? dropped, by rw [value]; rfl⟩
  · rintro ⟨number, rfl, read⟩
    simpa [measured?] using read

/-- No number ends in the letter by which root ems differ from ems. -/
theorem not_isSome_measured?_em {s : List Char} (rem : ['r', 'e', 'm'] <:+ s) :
    ¬ (measured? ['e', 'm'] s).isSome := by
  rw [isSome_measured?_iff]
  rintro ⟨number, same, read⟩
  obtain ⟨front, rfl⟩ := rem
  have shorter : front ++ ['r'] = number := by
    have cut : (front ++ ['r']) ++ ['e', 'm'] = number ++ ['e', 'm'] := by simpa using same
    exact List.append_cancel_right cut
  have letter := Decimal.isNumeralText_of_readFloat? read 'r' (by simp [← shorter])
  exact absurd letter (by decide)

theorem isSome_absoluteLength?_iff (size : Float) {s : List Char} :
    (absoluteLength? false size s).isSome ↔ IsRelative s := by
  have units : IsRelative s ↔
      s = ['0'] ∨ (measured? ['r', 'e', 'm'] s).isSome ∨ (measured? ['e', 'm'] s).isSome := by
    simp [IsRelative, isSome_measured?_iff]
  rw [absoluteLength?, units]
  split
  · next nought => simp [nought]
  · next other =>
    split
    · next rem =>
      rw [Text.isSome_dropEnding?_iff] at rem
      simp [other, not_isSome_measured?_em rem]
    · next noRem =>
      have none : ¬ (measured? ['r', 'e', 'm'] s).isSome := by
        rw [Text.isSome_dropEnding?_iff] at noRem
        rw [isSome_measured?_iff]
        rintro ⟨number, rfl, -⟩
        exact noRem (List.suffix_append number _)
      simp [other, none]

instance : DecidablePred IsRelative := fun _ =>
  decidable_of_iff _ (isSome_absoluteLength?_iff 0)

theorem exists_pixels_of_absoluteLength? {bare : Bool} {size : Float} {s : List Char} {r : String}
    (found : absoluteLength? bare size s = some r) : ∃ x, r = pixels x := by
  rw [absoluteLength?] at found
  split at found
  · split at found
    · cases found
    · cases found
      exact ⟨0, by decide +kernel⟩
  · split at found
    · obtain ⟨x, -, rfl⟩ := Option.map_eq_some_iff.mp found
      exact ⟨_, rfl⟩
    · obtain ⟨x, -, rfl⟩ := Option.map_eq_some_iff.mp found
      exact ⟨_, rfl⟩

/-! ## Values -/

section Values

variable [Libraries] {property : String} {size : Float}

/-- Properties whose values are neither looked through for colours nor may be bare numbers. -/
structure IsPlainProperty (property : String) : Prop where
  uncoloured : Property.isColoured property = false
  lengths : property ∉ bareNumbers

variable (plain : IsPlainProperty property)
include plain

theorem reportedPart_eq (part : String) :
    reportedPart property size part = (absoluteLength? false size part.toList).getD part := by
  have lengths : bareNumbers.contains property = false := by simpa using plain.lengths
  rw [reportedPart, plain.uncoloured, lengths]
  rfl

theorem reportedPart_eq_self_iff (size : Float) {part : String} :
    reportedPart property size part = part ↔ ¬ IsRelative part.toList := by
  rw [reportedPart_eq plain, ← isSome_absoluteLength?_iff size]
  cases found : absoluteLength? false size part.toList with
  | none => simp
  | some r =>
    have relative := (isSome_absoluteLength?_iff size).mp (Option.isSome_of_eq_some found)
    obtain ⟨x, rfl⟩ := exists_pixels_of_absoluteLength? found
    refine iff_of_false (fun same => ?_) (by simp)
    exact relative.ne_pixels x (congrArg String.toList same)

theorem solid_reportedPart {part : String} (solid : Solid part.toList) :
    Solid (reportedPart property size part).toList := by
  rw [reportedPart_eq plain]
  cases found : absoluteLength? false size part.toList with
  | none => exact solid
  | some r =>
    obtain ⟨x, rfl⟩ := exists_pixels_of_absoluteLength? found
    exact solid_pixels x

theorem reported_eq (value : String) :
    reported property value size =
      " ".intercalate ((components value).map (reportedPart property size)) := by
  have weight : property ≠ "font-weight" := fun same => plain.lengths (same ▸ by decide)
  have height : property ≠ "line-height" := fun same => plain.lengths (same ▸ by decide)
  unfold reported
  split
  · exact absurd rfl weight
  · exact absurd rfl weight
  · exact absurd rfl height
  · rfl

/-- A value without parentheses is reported as it is declared just if its words are set apart
by single spaces and none of them is a length to be put in pixels. -/
theorem reported_eq_self_iff {value : String} (noParen : '(' ∉ value.toList) :
    reported property value size = value ↔
      Text.collapse value.toList = value.toList ∧
        ∀ w ∈ Text.words value.toList, ¬ IsRelative w := by
  let form (w : List Char) : List Char := (reportedPart property size (String.ofList w)).toList
  have text : (reported property value size).toList =
      [' '].intercalate ((Text.words value.toList).map form) := by
    rw [reported_eq plain, components_eq_words noParen, String.toList_intercalate, List.map_map,
      List.map_map]
    rfl
  have solid : ∀ w ∈ (Text.words value.toList).map form, Solid w := by
    intro w hw
    obtain ⟨v, hv, rfl⟩ := List.mem_map.mp hw
    exact solid_reportedPart plain (by simpa using Text.solid_of_mem_words hv)
  have kept (w : List Char) : form w = w ↔ ¬ IsRelative w := by
    rw [← String.toList_ofList (l := w), ← reportedPart_eq_self_iff plain size,
      String.toList_ofList, ← String.toList_inj]
    simp [form]
  have all : (Text.words value.toList).map form = Text.words value.toList ↔
      ∀ w ∈ Text.words value.toList, ¬ IsRelative w := by
    have each := List.map_inj_left (l := Text.words value.toList) (f := form) (g := id)
    rw [List.map_id] at each
    simp only [each, id_eq, kept]
  rw [← String.toList_inj, text, ← all]
  constructor
  · intro same
    have forms := Text.words_spaced solid
    rw [same] at forms
    refine ⟨?_, forms.symm⟩
    rw [Text.collapse]
    rwa [← forms] at same
  · rintro ⟨collapsed, forms⟩
    rw [forms]
    exact collapsed

end Values

/-! ## Quoted texts -/

/-- A text between quotation marks. -/
def quoted (w : String) : String := "\"" ++ w ++ "\""

theorem toList_quoted (w : String) : (quoted w).toList = '"' :: (w.toList ++ ['"']) := by
  rw [quoted, String.toList_append, String.toList_append]
  rfl

theorem startsVisible_quoted (w : String) : Text.StartsVisible (quoted w).toList := by
  rw [toList_quoted]
  rintro c ⟨⟩
  rfl

theorem endsVisible_quoted (w : String) : Text.EndsVisible (quoted w).toList := by
  rw [toList_quoted, ← List.cons_append]
  intro c hc
  rw [List.getLast?_concat] at hc
  cases hc
  rfl

theorem singleSpaced_quoted_iff {w : String} :
    SingleSpaced (quoted w).toList ↔ SingleSpaced w.toList := by
  rw [toList_quoted, Text.singleSpaced_cons_visible (by decide),
    Text.singleSpaced_snoc_visible (by decide)]

/-- A quoted content or font is reported as it is declared just if the text between the quotes
has no blanks but single spaces and no word of the whole is a length to be put in pixels. -/
theorem quoted_value_kept_iff [Libraries] {tag property w : String} {declared : Dict String}
    {parent : Option (Dict String)} (named : property ∈ ["content", "font-family"])
    (noParen : '(' ∉ w.toList) (said : declared.get? property = some (quoted w)) :
    (computedValues tag declared parent).get? property = some (quoted w) ↔
      SingleSpaced w.toList ∧ ∀ x ∈ Text.words (quoted w).toList, ¬ IsRelative x := by
  have table : ∀ p ∈ ["content", "font-family"], p ∈ Property.important ∧
      p ∉ "font-size" :: composed ∧ Property.isColoured p = false ∧ p ∉ bareNumbers := by
    decide +kernel
  obtain ⟨known, single, uncoloured, lengths⟩ := table property named
  have trimmed : String.ofList (Text.trim (quoted w).toList) = quoted w := by
    rw [Text.trim_eq_self (startsVisible_quoted w) (endsVisible_quoted w), String.ofList_toList]
  have noKeyword : quoted w ∉ ["unset", "inherit", "initial"] := by
    intro keyword
    have unquoted : ∀ k ∈ ["unset", "inherit", "initial"], k.toList.head? ≠ some '"' := by decide
    exact unquoted _ keyword (by rw [toList_quoted]; rfl)
  have noParen' : '(' ∉ (quoted w).toList := by simpa [toList_quoted] using noParen
  rw [get?_computedValues known single, ownValue_of_declared said (by rwa [trimmed]), trimmed,
    Option.some.injEq, reported_eq_self_iff ⟨uncoloured, lengths⟩ noParen',
    Text.collapse_eq_self_iff (startsVisible_quoted w) (endsVisible_quoted w),
    singleSpaced_quoted_iff]

theorem quoted_value_kept_iff_of_plain :
    (computedValues "p" (.ofList [("content", quoted "2 em")]) none).get? "content" =
      some (quoted "2 em") :=
  (quoted_value_kept_iff (by decide) (by decide) (by decide +kernel)).mpr
    ⟨⟨by simp [Text.isBlank], by simp [Text.isBlank]⟩, by decide +kernel⟩

/-- Of two spaces one is left. -/
theorem quoted_spaces_collapse :
    (computedValues "p" (.ofList [("content", quoted "a  b")]) none).get? "content" =
        some (quoted "a b") ∧
      quoted "a b" ≠ quoted "a  b" := by
  refine ⟨?_, by decide⟩
  rw [get?_computedValues (by decide +kernel) (by decide)]
  decide +kernel

end AuthoredStyle.Cascade
