import AuthoredStyle.Cascade.Match
import AuthoredStyle.Proofs.Text.Words

/-!
# What attribute conditions mean

Style sheets compare an attribute with a value in six ways. An empty value is the start, the
end and a part of every text, but in a style sheet none of the three conditions holds with it;
the matcher has no such rule. For values with any text the matcher does what style sheets say,
as far as both agree on what separates the words of the attribute.
-/

namespace AuthoredStyle

namespace Dom.Element

/-! ## Attributes of an element -/

/-- The first attribute of this name, in any case of its ASCII letters, has this value. -/
def Bears (e : Element) (name value : String) : Prop :=
  ∃ before own after, e.attributes = before ++ (own, value) :: after ∧
    lowered own = lowered name ∧ ∀ a ∈ before, lowered a.1 ≠ lowered name

def Lacks (e : Element) (name : String) : Prop := ∀ a ∈ e.attributes, lowered a.1 ≠ lowered name

section Attributes

variable {e : Element} {name value : String}

theorem Bears.attr?_eq (bears : e.Bears name value) : e.attr? name = some value := by
  obtain ⟨before, own, after, split, same, first⟩ := bears
  have found : e.attributes.find? (fun a => lowered a.1 = lowered name) = some (own, value) :=
    List.find?_eq_some_iff_append.mpr
      ⟨by simpa using same, before, after, split, fun a ha => by simpa using first a ha⟩
  rw [attr?, found]
  rfl

theorem Lacks.attr?_eq (lacks : e.Lacks name) : e.attr? name = none := by
  have none : e.attributes.find? (fun a => lowered a.1 = lowered name) = none :=
    List.find?_eq_none.mpr fun a ha => by simpa using lacks a ha
  rw [attr?, none]
  rfl

end Attributes

end Dom.Element

namespace Cascade

open Dom (Element)
open Text (IsWordOf)

/-! ## Conditions in style sheets -/

/-- What style sheets mean by a comparison; `white` separates words. -/
def Comparison.Means (white : Char → Bool) (actual expected : List Char) : Comparison → Prop
  | exact => actual = expected
  | includes => IsWordOf white expected actual
  | startsWith => expected ≠ [] ∧ expected <+: actual
  | endsWith => expected ≠ [] ∧ expected <:+ actual
  | substring => expected ≠ [] ∧ expected <:+: actual
  | dashMatch => actual = expected ∨ expected ++ ['-'] <+: actual

/-- White space in style sheets: space, tab, line feed, carriage return and form feed. -/
def isSheetBlank (c : Char) : Bool := [' ', '\t', '\n', '\r', '\x0c'].contains c

/-- A compound that asks for one attribute and nothing else. -/
def AttributeTest.alone (test : AttributeTest) : Compound := { attributes := [test] }

theorem AttributeTest.holdsOf_alone (test : AttributeTest) (e : Element) :
    test.alone.holdsOf e = test.holdsOf e := by
  have all : (∅ : NameSet).toList.all e.hasClass = true := rfl
  simp [alone, Compound.holdsOf, all]

/-- On this element the comparison with this value comes out as style sheets say. -/
def Comparison.Follows (white : Char → Bool) (e : Element) (name actual : String)
    (how : Comparison) (expected : String) : Prop :=
  (AttributeTest.mk name (some (how, expected))).alone.holdsOf e = true ↔
    how.Means white actual.toList expected.toList

section Conditions

variable {e : Element} {name actual : String}

theorem AttributeTest.holdsOf_of_bears (bears : e.Bears name actual) (how : Comparison)
    (expected : String) :
    (AttributeTest.mk name (some (how, expected))).alone.holdsOf e = how.holds actual expected := by
  rw [holdsOf_alone, holdsOf, bears.attr?_eq]

/-- Without the rule for empty values, and with the matcher's own white space. -/
theorem Comparison.holds_iff (how : Comparison) (actual expected : String) :
    how.holds actual expected = true ↔
      match how with
      | exact => actual.toList = expected.toList
      | includes => IsWordOf Text.isBlank expected.toList actual.toList
      | startsWith => expected.toList <+: actual.toList
      | endsWith => expected.toList <:+ actual.toList
      | substring => expected.toList <:+: actual.toList
      | dashMatch => actual.toList = expected.toList ∨ expected.toList ++ ['-'] <+: actual.toList := by
  cases how with
  | exact => simp [holds, String.toList_inj]
  | includes => rw [holds, List.contains_iff_mem]; exact Text.mem_runs_iff
  | startsWith => exact List.isPrefixOf_iff_prefix
  | endsWith => exact Text.isSome_dropEnding?_iff
  | substring => exact Text.holds_iff
  | dashMatch => simp [holds, Text.hasLead, String.toList_inj]

theorem Comparison.follows_empty_iff (white : Char → Bool) (bears : e.Bears name actual)
    (how : Comparison) :
    how.Follows white e name actual "" ↔ how ∉ [.startsWith, .endsWith, .substring] := by
  rw [Follows, AttributeTest.holdsOf_of_bears bears, holds_iff]
  have none (white : Char → Bool) : ¬ IsWordOf white [] actual.toList := fun word => word.ne_nil rfl
  cases how <;> simp [Means, none]

/-- Words are told alike just where white space is. -/
theorem forall_isWordOf_iff {white : Char → Bool} {s : List Char}
    (narrow : ∀ c, white c = true → Text.isBlank c = true) :
    (∀ w, IsWordOf Text.isBlank w s ↔ IsWordOf white w s) ↔
      ∀ c ∈ s, Text.isBlank c = true → white c = true := by
  constructor
  · intro same c hc blank
    by_contra other
    obtain ⟨w, run, inside⟩ := Text.exists_mem_runs (Bool.eq_false_iff.mpr other) hc
    have visible := ((same w).mpr (Text.mem_runs_iff.mp run)).solid c inside
    rw [blank] at visible
    cases visible
  · intro wide w
    have same : ∀ c ∈ s, Text.isBlank c = white c :=
      fun c hc => Bool.eq_iff_iff.mpr ⟨wide c hc, narrow c⟩
    rw [← Text.mem_runs_iff, ← Text.mem_runs_iff, Text.runs_congr same]

theorem Comparison.follows_some_iff {white : Char → Bool}
    (narrow : ∀ c, white c = true → Text.isBlank c = true) (bears : e.Bears name actual)
    (how : Comparison) :
    (∀ expected ≠ "", how.Follows white e name actual expected) ↔
      (how = .includes → ∀ c ∈ actual.toList, Text.isBlank c = true → white c = true) := by
  have some {expected : String} (h : expected ≠ "") : expected.toList ≠ [] := by simpa using h
  simp only [Follows, AttributeTest.holdsOf_of_bears bears, holds_iff]
  cases how with
  | includes =>
    rw [← forall_isWordOf_iff narrow]
    refine ⟨fun same _ w => ?_, fun same expected _ => same rfl expected.toList⟩
    by_cases none : w = []
    · exact iff_of_false (fun word => word.ne_nil none) (fun word => word.ne_nil none)
    · have whole := same (String.ofList w) (by simpa using none)
      rwa [String.toList_ofList] at whole
  | startsWith | endsWith | substring =>
    exact iff_of_true (fun expected h => (and_iff_right (some h)).symm) (fun h => by cases h)
  | exact | dashMatch => exact iff_of_true (fun expected _ => Iff.rfl) (fun h => by cases h)

/-- A condition on an attribute that the element lacks fails, and one that asks for no value
holds of every attribute. With the empty value a comparison comes out as style sheets say
unless it looks for a start, an end or a part. With all other values it does so just if, where
it looks for words, the attribute has no white space that separates no words. -/
theorem attribute_follows_iff (e : Element) (name : String) :
    (e.Lacks name → ∀ value, (AttributeTest.mk name value).alone.holdsOf e = false) ∧
      ∀ actual, e.Bears name actual →
        (AttributeTest.mk name none).alone.holdsOf e = true ∧
          ∀ white : Char → Bool, (∀ c, white c = true → Text.isBlank c = true) →
            ∀ how : Comparison,
              (how.Follows white e name actual "" ↔
                how ∉ [.startsWith, .endsWith, .substring]) ∧
              ((∀ expected ≠ "", how.Follows white e name actual expected) ↔
                (how = .includes →
                  ∀ c ∈ actual.toList, Text.isBlank c = true → white c = true)) := by
  refine ⟨fun lacks value => ?_, fun actual bears => ⟨?_, fun white narrow how =>
    ⟨Comparison.follows_empty_iff white bears how, Comparison.follows_some_iff narrow bears how⟩⟩⟩
  · rw [AttributeTest.holdsOf_alone, AttributeTest.holdsOf, lacks.attr?_eq]
  · rw [AttributeTest.holdsOf_alone, AttributeTest.holdsOf, bears.attr?_eq]

end Conditions

/-- A paragraph with a title of two words and a vertical tab. -/
def leadParagraph : Element := { name := "p", attributes := [("TITLE", "first second\x0bthird")] }

theorem leadParagraph_bears : leadParagraph.Bears "title" "first second\x0bthird" :=
  ⟨[], "TITLE", [], rfl, by decide, by simp⟩

theorem isBlank_of_isSheetBlank {c : Char} (h : isSheetBlank c = true) : Text.isBlank c = true := by
  simp only [isSheetBlank, List.contains_iff_mem] at h
  exact (by simp [Text.isBlank] : ∀ c ∈ [' ', '\t', '\n', '\r', '\x0c'], Text.isBlank c = true) c h

/-- The title is compared with starts as style sheets say, but not with words, and no
condition on a language holds. -/
theorem attribute_follows_iff_of_lead :
    (∀ expected ≠ "", Comparison.startsWith.Follows isSheetBlank leadParagraph "title"
        "first second\x0bthird" expected) ∧
      ¬ (∀ expected ≠ "", Comparison.includes.Follows isSheetBlank leadParagraph "title"
        "first second\x0bthird" expected) ∧
      ∀ value, (AttributeTest.mk "lang" value).alone.holdsOf leadParagraph = false := by
  have title := (attribute_follows_iff leadParagraph "title").2 _ leadParagraph_bears
  refine ⟨((title.2 isSheetBlank (fun _ => isBlank_of_isSheetBlank) _).2).mpr (fun h => by cases h),
    fun all => ?_, (attribute_follows_iff leadParagraph "lang").1 ?_⟩
  · have wide := ((title.2 isSheetBlank (fun _ => isBlank_of_isSheetBlank) _).2).mp all rfl
    exact absurd (wide '\x0b' (by decide) (by decide)) (by decide)
  · exact List.forall_mem_singleton.mpr (by decide)

/-- Every title starts with nothing, and the matcher says so. -/
theorem empty_start_found :
    ¬ ∀ (e : Element) (name actual : String), e.Bears name actual →
      ∀ (how : Comparison) (expected : String), how.Follows isSheetBlank e name actual expected := by
  intro always
  have follows := always leadParagraph _ _ leadParagraph_bears .startsWith ""
  have holds : (AttributeTest.mk "title" (some (.startsWith, ""))).alone.holdsOf leadParagraph = true :=
    by decide
  exact (follows.mp holds).1 rfl

end Cascade

end AuthoredStyle
