import AuthoredStyle.Proofs.Text.Collapse
import AuthoredStyle.SourceMap.Annotation

/-!
# Annotations and mere mentions

A stylesheet names its map in a comment of a fixed form. The words that open the address may
stand elsewhere in it too: in an ordinary comment, in a string, or with no address behind
them. The reader goes by the last place where they stand and by no other, so it finds the
last annotation exactly if nothing but that annotation stands last. A mere mention further
on hides every annotation in front of it, and the sheet then counts as one without a map.
-/

namespace AuthoredStyle

namespace Text

/-! ## The first occurrence and the last -/

section Occurrences

variable {pattern s before after : List Char}

theorem cut?_eq_none_iff : cut? pattern s = none ↔ ∀ b a, s ≠ b ++ pattern ++ a := by
  rw [← Option.not_isSome_iff_eq_none, ← holds, holds_iff]
  constructor
  · exact fun absent b a split => absent ⟨b, a, split.symm⟩
  · rintro none ⟨b, a, split⟩
    exact none b a split.symm

/-- No occurrence begins in front of the one that is cut at. -/
theorem length_le_of_cut? (h : cut? pattern s = some (before, after)) {b a : List Char}
    (split : s = b ++ pattern ++ a) : before.length ≤ b.length := by
  induction s generalizing before b with
  | nil =>
    have short := congrArg List.length (eq_of_cut? h)
    simp only [List.length_nil, List.length_append] at short
    omega
  | cons c s ih =>
    rw [cut?] at h
    split at h
    · cases h
      exact Nat.zero_le _
    · rename_i other
      obtain ⟨⟨front, behind⟩, found, same⟩ := Option.map_eq_some_iff.mp h
      cases same
      cases b with
      | nil =>
        rw [split, List.nil_append, dropLead?_append] at other
        cases other
      | cons d b =>
        obtain ⟨-, later⟩ := List.cons_eq_cons.mp split
        exact Nat.succ_le_succ (ih found later)

theorem cut?_eq_some_iff : cut? pattern s = some (before, after) ↔
    s = before ++ pattern ++ after ∧
      ∀ b a, s = b ++ pattern ++ a → before.length ≤ b.length := by
  refine ⟨fun h => ⟨eq_of_cut? h, fun b a split => length_le_of_cut? h split⟩, ?_⟩
  rintro ⟨whole, first⟩
  cases found : cut? pattern s with
  | none => exact absurd whole (cut?_eq_none_iff.mp found before after)
  | some parts =>
    obtain ⟨b, a⟩ := parts
    have split := eq_of_cut? found
    have same : b.length = before.length :=
      Nat.le_antisymm (length_le_of_cut? found whole) (first b a split)
    rw [whole, List.append_assoc, List.append_assoc] at split
    obtain ⟨rfl, behind⟩ := List.append_inj split same.symm
    rw [List.append_cancel_left behind]

/-- An ending that can be seen is found behind any blanks. -/
theorem suffix_trimEnd_iff (ending : List Char) {c : Char} (visible : isBlank c = false) :
    ending ++ [c] <:+ trimEnd s ↔ ∃ front gap, s = front ++ (ending ++ [c]) ++ gap ∧ Blank gap := by
  constructor
  · rintro ⟨front, split⟩
    obtain ⟨gap, blank, whole⟩ := exists_trimEnd_append s
    exact ⟨front, gap, split ▸ whole, blank⟩
  · rintro ⟨front, gap, rfl, blank⟩
    rw [trimEnd_append, if_pos (trimEnd_eq_nil blank), ← List.append_assoc,
      trimEnd_snoc_visible _ visible, List.append_assoc]
    exact List.suffix_append _ _

end Occurrences

end Text

namespace SourceMap

open Text (Blank)

/-! ## Mentions and annotations -/

/-- The opening words stand between the two texts. -/
def Mentions (css before after : List Char) : Prop := css = before ++ annotationMark ++ after

/-- Behind an annotating comment's opening, with blanks between them at most. -/
def IsOpened (before : List Char) : Prop :=
  ∃ front sign gap, before = front ++ ['/', '*', sign] ++ gap ∧ (sign = '#' ∨ sign = '@') ∧
    Blank gap

/-- Neither a blank nor a star. -/
def isAddressChar (c : Char) : Bool := !Text.isBlank c && c ≠ '*'

structure Annotates (css before after : List Char) : Prop where
  mentions : Mentions css before after
  opened : IsOpened before
  addressed : ∃ c rest, after = c :: rest ∧ isAddressChar c = true

/-- As long as the text goes on with such characters. -/
structure IsAddress (address after : List Char) : Prop where
  chars : ∀ c ∈ address, isAddressChar c = true
  longest : ∃ rest, after = address ++ rest ∧ ∀ c, rest.head? = some c → isAddressChar c = false

/-- It stands so there, and nowhere further on. -/
def IsLast (stands : List Char → List Char → Prop) (before after : List Char) : Prop :=
  stands before after ∧ ∀ b a, stands b a → b.length ≤ before.length

/-- The address behind the last annotation, or nothing where there is no annotation. -/
def TellsLast (css : List Char) : Option String → Prop
  | none => ∀ before after, ¬ Annotates css before after
  | some address => ∃ before after,
      IsLast (Annotates css) before after ∧ IsAddress address.toList after

/-- The last mention is a mere mention, and there are annotations in front of it. -/
def HidesAnnotations (css : List Char) : Prop :=
  (∃ before after, IsLast (Mentions css) before after ∧ ¬ Annotates css before after) ∧
    ∃ before after, Annotates css before after

/-! ## What the reader looks at -/

section Reader

variable {css before after : List Char}

theorem mentions_reverse_iff {b a : List Char} :
    css.reverse = a.reverse ++ annotationMark.reverse ++ b.reverse ↔ Mentions css b a := by
  have turned : a.reverse ++ annotationMark.reverse ++ b.reverse =
      (b ++ annotationMark ++ a).reverse := by
    simp
  rw [turned, List.reverse_inj, Mentions]

theorem Mentions.length_eq (h : Mentions css before after) :
    css.length = before.length + annotationMark.length + after.length := by
  rw [h, List.length_append, List.length_append]

theorem cutLastText?_eq_none_iff :
    cutLastText? annotationMark css = none ↔ ∀ b a, ¬ Mentions css b a := by
  rw [cutLastText?, Option.map_eq_none_iff, Text.cut?_eq_none_iff]
  constructor
  · exact fun absent b a h => absent _ _ (mentions_reverse_iff.mpr h)
  · intro absent a b split
    refine absent b.reverse a.reverse (mentions_reverse_iff.mp ?_)
    simpa using split

theorem cutLastText?_eq_some_iff :
    cutLastText? annotationMark css = some (before, after) ↔
      IsLast (Mentions css) before after := by
  have reversed : cutLastText? annotationMark css = some (before, after) ↔
      Text.cut? annotationMark.reverse css.reverse = some (after.reverse, before.reverse) := by
    rw [cutLastText?, Option.map_eq_some_iff]
    constructor
    · rintro ⟨⟨a, b⟩, found, same⟩
      cases same
      simpa using found
    · intro found
      exact ⟨_, found, by simp⟩
  rw [reversed, Text.cut?_eq_some_iff, mentions_reverse_iff]
  refine and_congr_right fun here => ?_
  have length := here.length_eq
  constructor
  · intro first b a there
    have behind := first a.reverse b.reverse (mentions_reverse_iff.mpr there)
    have length' := there.length_eq
    simp only [List.length_reverse] at behind
    omega
  · intro last a b split
    have there : Mentions css b.reverse a.reverse :=
      mentions_reverse_iff.mp (by simpa using split)
    have behind := last _ _ there
    have length' := there.length_eq
    simp only [List.length_reverse] at behind length' ⊢
    omega

theorem opensAnnotation_iff : opensAnnotation before = true ↔ IsOpened before := by
  have sign (c : Char) (visible : Text.isBlank c = false) :
      (Text.dropEnding? ['/', '*', c] (Text.trimEnd before)).isSome ↔
        ∃ front gap, before = front ++ ['/', '*', c] ++ gap ∧ Blank gap :=
    Text.isSome_dropEnding?_iff.trans (Text.suffix_trimEnd_iff ['/', '*'] visible)
  have either : opensAnnotation before = true ↔
      (Text.dropEnding? ['/', '*', '#'] (Text.trimEnd before)).isSome ∨
        (Text.dropEnding? ['/', '*', '@'] (Text.trimEnd before)).isSome := by
    unfold opensAnnotation
    exact Bool.or_eq_true_iff
  rw [either, sign '#' rfl, sign '@' rfl]
  constructor
  · rintro (⟨front, gap, split⟩ | ⟨front, gap, split⟩)
    · exact ⟨front, '#', gap, split.1, .inl rfl, split.2⟩
    · exact ⟨front, '@', gap, split.1, .inr rfl, split.2⟩
  · rintro ⟨front, c, gap, split, rfl | rfl, blank⟩
    · exact .inl ⟨front, gap, split, blank⟩
    · exact .inr ⟨front, gap, split, blank⟩

/-- What the reader takes for the address. -/
def addressIn (after : List Char) : List Char := after.takeWhile isAddressChar

theorem isAddress_addressIn (after : List Char) : IsAddress (addressIn after) after where
  chars := fun _ hc => List.mem_takeWhile_imp hc
  longest := by
    refine ⟨_, List.takeWhile_append_dropWhile.symm, fun c first => ?_⟩
    have stops := List.head?_dropWhile_not isAddressChar after
    rw [first] at stops
    simpa using stops

theorem addressIn_isEmpty_iff :
    (!(addressIn after).isEmpty) = true ↔ ∃ c rest, after = c :: rest ∧ isAddressChar c = true := by
  cases after with
  | nil => simp [addressIn]
  | cons c rest =>
    rw [addressIn, List.takeWhile_cons]
    cases here : isAddressChar c <;> simp [here]

end Reader

section Outcome

variable {css : String} {before after : List Char}

theorem mapReference?_eq (css : String) :
    mapReference? css =
      match cutLastText? annotationMark css.toList with
      | none => none
      | some (before, after) =>
        if opensAnnotation before && !(addressIn after).isEmpty then
          some (String.ofList (addressIn after))
        else none := rfl

theorem mapReference?_of_unmentioned (absent : ∀ b a, ¬ Mentions css.toList b a) :
    mapReference? css = none := by
  rw [mapReference?_eq, cutLastText?_eq_none_iff.mpr absent]

theorem mapReference?_of_annotates (last : IsLast (Mentions css.toList) before after)
    (annotates : Annotates css.toList before after) :
    mapReference? css = some (String.ofList (addressIn after)) := by
  rw [mapReference?_eq, cutLastText?_eq_some_iff.mpr last]
  dsimp only
  rw [opensAnnotation_iff.mpr annotates.opened, addressIn_isEmpty_iff.mpr annotates.addressed]
  rfl

theorem mapReference?_of_mention (last : IsLast (Mentions css.toList) before after)
    (mere : ¬ Annotates css.toList before after) : mapReference? css = none := by
  rw [mapReference?_eq, cutLastText?_eq_some_iff.mpr last]
  dsimp only
  rw [if_neg]
  rw [Bool.and_eq_true, opensAnnotation_iff, addressIn_isEmpty_iff]
  exact fun ⟨opened, addressed⟩ => mere ⟨last.1, opened, addressed⟩

theorem exists_isLast_mentions (mentions : Mentions css.toList before after) :
    ∃ b a, IsLast (Mentions css.toList) b a := by
  cases found : cutLastText? annotationMark css.toList with
  | none => exact absurd mentions (cutLastText?_eq_none_iff.mp found before after)
  | some parts => exact ⟨parts.1, parts.2, cutLastText?_eq_some_iff.mp found⟩

end Outcome

/-- The reader tells the last annotation exactly if no mere mention further on hides it.
Where one does, the sheet seems to have none. -/
theorem mapReference?_tells_last_iff (css : String) :
    (TellsLast css.toList (mapReference? css) ↔ ¬ HidesAnnotations css.toList) ∧
      (HidesAnnotations css.toList → mapReference? css = none) := by
  have hidden (hides : HidesAnnotations css.toList) : mapReference? css = none := by
    obtain ⟨⟨before, after, last, mere⟩, -⟩ := hides
    exact mapReference?_of_mention last mere
  refine ⟨⟨fun tells hides => ?_, fun shown => ?_⟩, hidden⟩
  · rw [hidden hides] at tells
    obtain ⟨-, before, after, annotates⟩ := hides
    exact tells before after annotates
  · by_cases mentioned : ∃ before after, Mentions css.toList before after
    · obtain ⟨b, a, mentions⟩ := mentioned
      obtain ⟨before, after, last⟩ := exists_isLast_mentions mentions
      by_cases annotates : Annotates css.toList before after
      · rw [mapReference?_of_annotates last annotates]
        refine ⟨before, after, ⟨annotates, fun b a other => last.2 b a other.mentions⟩, ?_⟩
        rw [String.toList_ofList]
        exact isAddress_addressIn after
      · rw [mapReference?_of_mention last annotates]
        exact fun b a other => shown ⟨⟨before, after, last, annotates⟩, b, a, other⟩
    · have absent : ∀ b a, ¬ Mentions css.toList b a := fun b a h => mentioned ⟨b, a, h⟩
      rw [mapReference?_of_unmentioned absent]
      exact fun b a annotates => absent b a annotates.mentions

/-- A comment about source maps stands behind the annotation. -/
def explainedSheet : String :=
  ".a\x7bcolor:red\x7d\n/*# sourceMappingURL=main.css.map */\n" ++
    "/* no sourceMappingURL= in production */"

/-- The sheet has an annotation, and the reader tells none. -/
theorem comment_hides_address :
    ¬ ∀ css : String, TellsLast css.toList (mapReference? css) := by
  intro always
  have tells := always explainedSheet
  have nothing : mapReference? explainedSheet = none := by decide +kernel
  rw [nothing] at tells
  let front := ".a\x7bcolor:red\x7d\n".toList
  let rest := "ain.css.map */\n/* no sourceMappingURL= in production */".toList
  let before := front ++ ['/', '*', '#'] ++ [' ']
  have opened : IsOpened before := ⟨front, '#', [' '], rfl, .inl rfl, by decide⟩
  have mentions : Mentions explainedSheet.toList before ('m' :: rest) := by
    rw [Mentions]
    decide +kernel
  exact tells before _ ⟨mentions, opened, 'm', rest, rfl, by decide⟩

end SourceMap

end AuthoredStyle
