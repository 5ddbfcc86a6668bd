import AuthoredStyle.StyleTree.Scss
import AuthoredStyle.Proofs.Decimal.Figures
import AuthoredStyle.Proofs.Sheet.Passing
import AuthoredStyle.Proofs.Sheet.Path
import AuthoredStyle.Proofs.Sheet.Uncommented

/-!
# Declarations, written and read

A declaration of a known property is read back from what is written for it: the
property with its value less outer blanks and importance mark, or, where a font
size became a mixin call, the pixels the call was given. Values may hold anything
that a scan passes over and in which no comment opens.
-/

namespace AuthoredStyle

open Sheet
open Text (Solid)

/-- A value that can stand in a declaration: something is left of it without
its importance mark, no comment opens in it, and it ends where it is meant to. -/
structure Scss.IsNeutral (value : List Char) : Prop where
  visible : plainValue value ≠ []
  uncommented : OpensNoComment value
  passes : PassesOver value

section Sizes

theorem Decimal.IsFigure.isPathChar {c : Char} (h : IsFigure c) : IsPathChar c := by
  rcases h with digit | mark
  · exact .inl (by simp [Char.isAlphanum, digit])
  · exact (by simp [IsPathChar] : ∀ c ∈ ['-', '.', 'N', 'a', 'i', 'n', 'f'], IsPathChar c) c mark

theorem Value.isPathWord_ratioText (x : Float) : IsPathWord (ratioText x).toList :=
  ⟨fun none => ratioText_ne_empty x (String.toList_eq_nil_iff.mp none),
    fun c hc => (isFigure_of_mem_ratioText x c hc).isPathChar⟩

theorem Scss.isPathWord_of_fontSizeArgument? {value size : String}
    (h : fontSizeArgument? value = some size) : IsPathWord size.toList := by
  rw [fontSizeArgument?] at h
  split at h
  · rw [← Option.some.inj h]
    exact Value.isPathWord_ratioText _
  · simp only [Option.bind_eq_bind, Option.bind_eq_some_iff] at h
    obtain ⟨number, -, rem, -, same⟩ := h
    rw [← Option.some.inj same]
    exact Value.isPathWord_ratioText _

end Sizes

section Properties

/-- The names of the table are words of small letters and hyphens. -/
theorem Property.important_letters {p : String} (h : p ∈ important) :
    p.toList ≠ [] ∧ ∀ c ∈ p.toList, c.isLower = true ∨ c = '-' := by
  have table : important.all (fun p =>
      !p.toList.isEmpty && p.toList.all fun c => c.isLower || c = '-') = true := by
    decide +kernel
  simpa using List.all_eq_true.mp table p h

theorem isAlpha_of_isLower {c : Char} (h : c.isLower = true) : c.isAlpha = true :=
  Bool.or_eq_true_iff.mpr (.inr h)

theorem toLower_of_isLower {c : Char} (h : c.isLower = true) : c.toLower = c := by
  delta Char.isLower at h
  delta Char.toLower
  grind

theorem Property.important_plain (p : String) (h : p ∈ important) :
    IsPathWord p.toList ∧ Text.lower p.toList = p.toList := by
  obtain ⟨some, letters⟩ := important_letters h
  refine ⟨⟨some, fun c hc => ?_⟩, (List.map_congr_left fun c hc => ?_).trans (List.map_id _)⟩
  · rcases letters c hc with small | rfl
    · exact .inl (Bool.or_eq_true_iff.mpr (.inl (isAlpha_of_isLower small)))
    · decide
  · rcases letters c hc with small | rfl
    · exact toLower_of_isLower small
    · rfl

theorem Property.isPathWord_of_isImportant {p : String} (h : isImportant p = true) :
    IsPathWord p.toList :=
  (important_plain p (List.contains_iff_mem.mp h)).1

theorem Property.lower_of_isImportant {p : String} (h : isImportant p = true) :
    Text.lower p.toList = p.toList :=
  (important_plain p (List.contains_iff_mem.mp h)).2

end Properties

theorem Sheet.IsPathChar.isOrdinary {c : Char} (h : IsPathChar c) : IsOrdinary c := by
  have apart : marks.all (fun c => !decide (IsPathChar c)) = true := by decide
  exact isOrdinary_of_kind apart (decide_eq_true h)

theorem Sheet.IsPathWord.passesOver {w : List Char} (h : IsPathWord w) : PassesOver w :=
  passesOver_ordinary fun c hc => (h.2 c hc).isOrdinary

theorem Sheet.declaration?_trim (statement : List Char) :
    declaration? (Text.trim statement) = declaration? statement := by
  rw [declaration?, declaration?, written?, written?, Text.trim_trim]

namespace Scss

/-- The size that a declaration gives to a mixin call. -/
def calledWith? (o : Options) (property value : String) : Option String :=
  if o.fontSize && property = "font-size" then fontSizeArgument? value else none

/-- The value that is read where a declaration was written. -/
def readBack (o : Options) (property value : String) : String :=
  match calledWith? o property value with
  | some size => size ++ "px"
  | none => String.ofList (plainValue value.toList)

theorem declaration?_assignment {property : String} {value : List Char}
    (known : Property.isImportant property = true) (visible : plainValue value ≠ []) :
    declaration? (property.toList ++ ':' :: ' ' :: value) =
      some (property, String.ofList (plainValue value)) := by
  have word := Property.isPathWord_of_isImportant known
  have colon : ':' ∉ property.toList := word.not_mem (by decide)
  have trimmed : Text.trim (property.toList ++ ':' :: ' ' :: value) =
      property.toList ++ ':' :: Text.trimEnd (' ' :: value) := by
    rw [Text.trim_append _ word.solid, Text.trimEnd_cons_visible _ (by decide)]
  have notCall : Text.dropLead? fontSizeCall
      (property.toList ++ ':' :: Text.trimEnd (' ' :: value)) = none := by
    obtain ⟨c, rest, starts, -⟩ := word.solid.exists_cons
    have other : '@' ≠ c := by
      rintro rfl
      exact word.not_mem (by decide) (starts ▸ List.mem_cons_self)
    rw [starts]
    exact Text.dropLead?_other _ _ other
  have samePlain : plainValue (Text.trimEnd (' ' :: value)) = plainValue value := by
    have gone : Text.trim (' ' :: value) = Text.trim value :=
      Text.trim_blank_append value (s := [' ']) (by simp [Text.Blank, Text.isBlank])
    rw [plainValue, plainValue, Text.trim_trimEnd, gone]
  rw [declaration?, written?, trimmed, notCall, Text.cut?_first _ colon]
  simp [samePlain, visible, known, Text.trim_solid word.solid,
    Property.lower_of_isImportant known]

theorem fontSizeCall_eq :
    fontSizeCall = "@include".toList ++ ' ' :: "font-size".toList ++ ['('] := by
  decide +kernel

theorem declaration?_call {size : List Char} (h : IsPathWord size) :
    declaration? (fontSizeCall ++ size ++ [')']) =
      some ("font-size", String.ofList (size ++ ['p', 'x'])) := by
  have words : fontSizeCall ++ (size ++ [')']) =
      [' '].intercalate ["@include".toList, "font-size".toList ++ '(' :: size ++ [')']] := by
    rw [fontSizeCall_eq, List.intercalate_cons_cons, List.intercalate_singleton]
    simp only [List.append_assoc, List.cons_append, List.nil_append]
  have lead : Solid "@include".toList := by decide
  have name : Solid "font-size".toList := by decide
  have argument : Solid ("font-size".toList ++ '(' :: size ++ [')']) := by
    refine ⟨by simp, fun c hc => ?_⟩
    simp only [List.append_assoc, List.mem_append, List.cons_append, List.mem_cons,
      List.not_mem_nil, or_false] at hc
    rcases hc with hc | rfl | hc | rfl
    · exact name.2 c hc
    · rfl
    · exact (h.2 c hc).isBlank
    · rfl
  have trimmed : Text.trim (fontSizeCall ++ size ++ [')']) = fontSizeCall ++ (size ++ [')']) := by
    rw [List.append_assoc, words]
    refine Text.trim_spaced fun w hw => ?_
    rcases List.mem_cons.mp hw with rfl | hw
    · exact lead
    · exact List.mem_singleton.mp hw ▸ argument
  have known : Property.isImportant "font-size" = true := by decide +kernel
  rw [declaration?, written?, trimmed, Text.dropLead?_append]
  simp [Text.trim_solid h.solid, known]

section Declaration

variable {o : Options} {property value : String}

theorem toList_call (size : String) :
    ("@include font-size(" ++ size ++ ")").toList = fontSizeCall ++ size.toList ++ [')'] := by
  rw [String.toList_append, String.toList_append]
  rfl

theorem declaration?_mixin {size : String} (h : IsPathWord size.toList) :
    declaration? ("@include font-size(" ++ size ++ ")").toList =
      some ("font-size", size ++ "px") := by
  have joined : String.ofList (size.toList ++ ['p', 'x']) = size ++ "px" := by
    apply String.toList_inj.mp
    simp
  rw [toList_call, declaration?_call h, joined]

theorem declaration_call {size : String} (h : calledWith? o property value = some size) :
    declaration o property value = "@include font-size(" ++ size ++ ")" := by
  rw [calledWith?] at h
  rw [declaration, h]

theorem toList_declaration_plain (h : calledWith? o property value = none) :
    (declaration o property value).toList = property.toList ++ ':' :: ' ' :: value.toList := by
  rw [calledWith?] at h
  rw [declaration, h]
  simp

theorem of_calledWith? {size : String} (h : calledWith? o property value = some size) :
    property = "font-size" ∧ IsPathWord size.toList := by
  rw [calledWith?] at h
  split at h
  · rename_i asked
    exact ⟨by simpa using (Bool.and_eq_true_iff.mp asked).2, isPathWord_of_fontSizeArgument? h⟩
  · simp at h

theorem declaration?_declaration (known : Property.isImportant property = true)
    (neutral : IsNeutral value.toList) :
    declaration? (declaration o property value).toList =
      some (property, readBack o property value) := by
  rw [readBack]
  cases call : calledWith? o property value with
  | some size =>
    obtain ⟨rfl, word⟩ := of_calledWith? call
    rw [declaration_call call, declaration?_mixin word]
  | none =>
    rw [toList_declaration_plain call]
    exact declaration?_assignment known neutral.visible

theorem trim_declaration_ne_nil (known : Property.isImportant property = true)
    (neutral : IsNeutral value.toList) :
    Text.trim (declaration o property value).toList ≠ [] := by
  intro gone
  have read := declaration?_declaration (o := o) known neutral
  rw [← declaration?_trim, gone] at read
  cases read

theorem passesOver_declaration (known : Property.isImportant property = true)
    (neutral : IsNeutral value.toList) : PassesOver (declaration o property value).toList := by
  cases call : calledWith? o property value with
  | some size =>
    have word := (of_calledWith? call).2
    have lead : PassesOver "@include font-size".toList := passesOver_of_all (by decide)
    have parens : PassesOver ('(' :: size.toList ++ [')']) :=
      passesOver_parens fun c hc => (word.2 c hc).isOrdinary
    have callName : fontSizeCall = "@include font-size".toList ++ ['('] := by decide +kernel
    have whole : fontSizeCall ++ size.toList ++ [')'] =
        "@include font-size".toList ++ ('(' :: size.toList ++ [')']) := by
      rw [callName]
      simp only [List.append_assoc, List.cons_append, List.nil_append]
    rw [declaration_call call, toList_call, whole]
    exact lead.append parens
  | none =>
    have name := (Property.isPathWord_of_isImportant known).passesOver
    have colon : PassesOver [':', ' '] := passesOver_of_all (by decide)
    rw [toList_declaration_plain call]
    simpa using (name.append colon).append neutral.passes

theorem opensNoComment_declaration (known : Property.isImportant property = true)
    (neutral : IsNeutral value.toList) :
    OpensNoComment (declaration o property value).toList := by
  cases call : calledWith? o property value with
  | some size =>
    have absent : '*' ∉ size.toList := (of_calledWith? call).2.not_mem (by decide)
    have absent' : '*' ∉ fontSizeCall := by decide +kernel
    rw [declaration_call call, toList_call]
    exact opensNoComment_of_not_mem (by simp [absent, absent'])
  | none =>
    have absent : '*' ∉ property.toList :=
      (Property.isPathWord_of_isImportant known).not_mem (by decide)
    have name : OpensNoComment (property.toList ++ [':', ' ']) :=
      opensNoComment_of_not_mem (by simp [absent])
    rw [toList_declaration_plain call]
    simpa using name.append neutral.uncommented (.inl (by simp))

end Declaration

end Scss

section Blocks

theorem Sheet.declare_new {name : String} (value : String) {ds : Declarations}
    (h : name ∉ ds.map (·.1)) : declare name value ds = ds ++ [(name, value)] := by
  induction ds with
  | nil => rfl
  | cons d ds ih =>
    rw [List.map_cons] at h
    obtain ⟨other, later⟩ := List.ne_and_not_mem_of_not_mem_cons h
    rw [declare, if_neg other.symm, ih later]
    rfl

/-- Declarations of different properties are all kept, in order. -/
theorem Sheet.declarations_of_distinct {said : List (List Char)} {ds : Declarations}
    (read : said.filterMap declaration? = ds) (distinct : (ds.map (·.1)).Nodup) :
    declarations said = ds := by
  have behind (before : Declarations) (all : ((before ++ ds).map (·.1)).Nodup) :
      ds.foldl (fun ds d => declare d.1 d.2 ds) before = before ++ ds := by
    clear read distinct
    induction ds generalizing before with
    | nil => simp
    | cons d ds ih =>
      have fresh : d.1 ∉ before.map (·.1) := by
        intro hd
        rw [List.map_append, List.nodup_append] at all
        exact all.2.2 d.1 hd d.1 (by simp) rfl
      rw [List.foldl_cons, declare_new d.2 fresh, ih]
      · simp
      · simpa using all
  rw [declarations, read]
  exact behind [] distinct

namespace Scss

def IsWritable (s : Styles) : Prop :=
  ∀ e ∈ s.entries, Property.isImportant e.1 = true ∧ IsNeutral e.2.toList

/-- The statements a block of styles is written with. -/
def said (o : Options) (s : Styles) : List (List Char) :=
  s.entries.map fun e => Text.trim (declaration o e.1 e.2).toList

/-- The styles that are read where a block of styles was written. -/
def readBackAll (o : Options) (s : Styles) : Styles :=
  ⟨s.entries.map fun e => (e.1, readBack o e.1 e.2), by simpa [List.pairwise_map] using s.increasing⟩

variable {o : Options} {s : Styles}

theorem map_fst_readBackAll : (readBackAll o s).entries.map (·.1) = s.keyList := by
  simp [readBackAll, Dict.keyList]

/-- No property is lost or renamed. -/
theorem keys_readBackAll : (readBackAll o s).keys = s.keys := by
  have same : (readBackAll o s).keyList = s.keyList := map_fst_readBackAll
  simp [Dict.keys, same]

theorem declarations_said (h : IsWritable s) :
    Sheet.declarations (said o s) = (readBackAll o s).entries := by
  refine declarations_of_distinct ?_ ?_
  · have each : (readBackAll o s).entries =
        s.entries.filterMap fun e => some (e.1, readBack o e.1 e.2) := by
      rw [List.filterMap_eq_map']
      rfl
    rw [said, List.filterMap_map, each]
    refine List.filterMap_congr fun e he => ?_
    obtain ⟨known, neutral⟩ := h e he
    exact (declaration?_trim _).trans (declaration?_declaration known neutral)
  · rw [map_fst_readBackAll]
    exact s.keys.increasing.imp fun {a b} (below : a < b) (same : a = b) =>
      String.lt_irrefl b (same ▸ below)

end Scss

end Blocks

end AuthoredStyle
