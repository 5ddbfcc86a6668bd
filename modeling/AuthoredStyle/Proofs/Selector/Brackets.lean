import AuthoredStyle.Proofs.Selector.Satisfied

/-!
# Attributes that are passed over

A part of a selector is read as far as its first bracket, so an attribute at its end asks for
nothing. But the selector is cut into parts before brackets are looked at. White space or a
`>` in the attribute ends the part there, and the rest, with the closing bracket, becomes a
part of its own that asks for a name with that bracket in it.
-/

namespace AuthoredStyle.Selector

open Page (Handle)

/-! ## Names and brackets -/

section Names

variable {kind : Kind} {seen s : List Char}

/-- Neither escapes nor opens a bracket. -/
def Direct (s : List Char) : Prop := ∀ c ∈ s, c ∉ ['\\', '[']

theorem names_direct {c : Char} (direct : c ∉ ['\\', '[']) (s : List Char) :
    names kind seen (c :: s) =
      if c = '#' then (kind, seen.reverse) :: names .id [] s
      else if c = '.' then (kind, seen.reverse) :: names .cls [] s
      else names kind (c :: seen) s := by
  split
  · next hash => rw [hash, names]
  · next noHash =>
    split
    · next dot => rw [dot, names]
    · next noDot =>
      have other : ∀ d ∈ [c], d ∉ nameMarks := by
        simp only [List.mem_cons, List.not_mem_nil, or_false, not_or] at direct
        simp [nameMarks, direct, noHash, noDot]
      exact names_unmarked_append other s

/-- What stands behind an opening bracket is not read. -/
theorem names_bracket (direct : Direct s) (t : List Char) :
    names kind seen (s ++ '[' :: t) = names kind seen s := by
  induction s generalizing kind seen with
  | nil => rw [List.nil_append, names, names]
  | cons c s ih =>
    obtain ⟨here, later⟩ := List.forall_mem_cons.mp direct
    rw [List.cons_append, names_direct here, names_direct here, ih later, ih later, ih later]

/-- A closing bracket at the end ends the last name. -/
theorem exists_names_closing (kind : Kind) (seen : List Char) (direct : Direct s) :
    ∃ before kind' name, names kind seen (s ++ [']']) = before ++ [(kind', name ++ [']'])] := by
  induction s generalizing kind seen with
  | nil => exact ⟨[], kind, seen.reverse, names_unmarked (by simp [nameMarks])⟩
  | cons c s ih =>
    obtain ⟨here, later⟩ := List.forall_mem_cons.mp direct
    rw [List.cons_append, names_direct here]
    split
    · obtain ⟨before, kind', name, cut⟩ := ih .id [] later
      exact ⟨(kind, seen.reverse) :: before, kind', name, by rw [cut]; rfl⟩
    · split
      · obtain ⟨before, kind', name, cut⟩ := ih .cls [] later
        exact ⟨(kind, seen.reverse) :: before, kind', name, by rw [cut]; rfl⟩
      · exact ih _ _ later

end Names

/-! ## Brackets asked for -/

/-- A closing bracket is somewhere in the names that an element shows. -/
def ShowsBracket (p : Page) (h : Handle) : Prop :=
  ']' ∈ (p.tag h).toList ∨ (∃ i, p.id? h = some i ∧ ']' ∈ i.toList) ∨
    ∃ c ∈ p.classes h, ']' ∈ c.toList

theorem bracket_mem_lower_iff {s : List Char} : ']' ∈ Text.lower s ↔ ']' ∈ s :=
  Text.mem_lower_iff (by decide)

namespace Part

theorem ofText_bracket {c : List Char} (direct : Direct c) (t : List Char) :
    ofText (c ++ '[' :: t) = ofText c := by
  rw [ofText, names_bracket direct, ofText]

/-- A part with a closing bracket at its end holds only of what shows one. -/
theorem showsBracket_of_holdsOf {s : List Char} (direct : Direct s) {p : Page} {h : Handle}
    (holds : (ofText (s ++ [']'])).holdsOf p h = true) : ShowsBracket p h := by
  obtain ⟨before, kind, name, cut⟩ := exists_names_closing .tag [] direct
  have some : (name ++ [']']).isEmpty = false := by simp
  have inside : ']' ∈ name ++ [']'] := by simp
  rw [ofText, cut, List.foldl_append, List.foldl_cons, List.foldl_nil] at holds
  generalize before.foldl ask {} = part at holds
  simp only [holdsOf, ask, some, Bool.false_eq_true, if_false, Bool.and_eq_true] at holds
  cases kind with
  | tag =>
    have noStar : name ++ [']'] ≠ ['*'] := by
      intro star
      rw [star] at inside
      exact absurd inside (by decide)
    have same : Text.lower (p.tag h).toList = Text.lower (name ++ [']']) := by
      simpa [noStar, Text.lower_lower] using holds.1.1
    refine .inl (bracket_mem_lower_iff.mp ?_)
    rw [same]
    exact bracket_mem_lower_iff.mpr inside
  | id =>
    have same : p.id? h = .some (String.ofList (name ++ [']'])) := by simpa using holds.1.2
    exact .inr (.inl ⟨_, same, by simp⟩)
  | cls =>
    have shown := List.all_eq_true.mp holds.2 _ (NameSet.mem_insert.mpr (.inl rfl))
    exact .inr (.inr ⟨_, by simpa using shown, by simp⟩)

/-- What a text without closing brackets asks for has none. -/
theorem ofText_shows {s : List Char} (closed : ']' ∉ s) :
    (∀ t, (ofText s).tag = some t → ']' ∉ t.toList) ∧
      (∀ i, (ofText s).id = some i → ']' ∉ i.toList) ∧
        ∀ c ∈ (ofText s).classes, ']' ∉ c.toList := by
  have absent {n : Kind × List Char} (hn : n ∈ names .tag [] s) : ']' ∉ n.2 :=
    fun hc => (mem_of_mem_names hn hc).elim List.not_mem_nil closed
  refine ⟨fun t asked => ?_, fun i asked => ?_, fun c asked => ?_⟩
  · rcases mem_of_tag_foldl_ask asked with none | ⟨n, hn, rfl⟩
    · cases none
    · rw [String.toList_ofList, bracket_mem_lower_iff]
      exact absent hn
  · rcases mem_of_id_foldl_ask asked with none | hn
    · cases none
    · exact absent hn
  · rcases mem_of_mem_classes_foldl_ask asked with none | hn
    · exact absurd none (NameSet.not_mem_empty c)
    · exact absent hn

end Part

/-- An element made for a part shows a closing bracket only if the part's text has one. -/
theorem Part.Fits.not_showsBracket {s : List Char} {p : Page} {h : Handle}
    (fits : (ofText s).Fits p h) (closed : ']' ∉ s) : ¬ ShowsBracket p h := by
  obtain ⟨tag, id, classes⟩ := ofText_shows closed
  rw [ShowsBracket, fits.tag, fits.id, fits.classes]
  rintro (shown | ⟨i, asked, shown⟩ | ⟨c, asked, shown⟩)
  · rw [String.toList_ofList, bracket_mem_lower_iff, someTag] at shown
    cases asked : (ofText s).tag with
    | none =>
      rw [asked] at shown
      exact absurd shown (by decide)
    | some t =>
      rw [asked] at shown
      exact tag t asked shown
  · exact id i asked shown
  · exact classes c asked shown

/-! ## Parts of a selector with an attribute -/

section Parts

/-- The last run of a text holds its last character. -/
theorem exists_runs_snoc {separates : Char → Bool} (s : List Char) {c : Char}
    (other : separates c = false) :
    ∃ front tail, Text.runs separates (s ++ [c]) = front ++ [tail ++ [c]] ∧ ∀ d ∈ tail, d ∈ s := by
  suffices ∃ front tail, Text.fields separates (s ++ [c]) = front ++ [tail ++ [c]] ∧
      ∀ d ∈ tail, d ∈ s by
    obtain ⟨front, tail, cut, inside⟩ := this
    exact ⟨front.filter (!·.isEmpty), tail, by simp [Text.runs, cut], inside⟩
  induction s with
  | nil => exact ⟨[], [], by simp [Text.fields, other], by simp⟩
  | cons d s ih =>
    obtain ⟨front, tail, cut, inside⟩ := ih
    rw [List.cons_append, Text.fields, cut]
    cases separates d with
    | true => exact ⟨[] :: front, tail, rfl, fun e he => List.mem_cons_of_mem d (inside e he)⟩
    | false =>
      cases front with
      | nil =>
        exact ⟨[], d :: tail, rfl, List.forall_mem_cons.mpr
          ⟨List.mem_cons_self, fun e he => List.mem_cons_of_mem d (inside e he)⟩⟩
      | cons f front =>
        exact ⟨(d :: f) :: front, tail, rfl, fun e he => List.mem_cons_of_mem d (inside e he)⟩

/-- Text behind a space is read by itself. -/
theorem exists_parts_behind {outer : String} (apart : outer = "" ∨ ∃ t, outer = t ++ " ") :
    ∃ front, ∀ s : String,
      parts (outer ++ s) = front ++ (Text.runs endsPart s.toList).map Part.ofText := by
  rcases apart with rfl | ⟨t, rfl⟩
  · exact ⟨[], fun s => by simp [parts_eq]⟩
  · refine ⟨parts t, fun s => ?_⟩
    have cut : (t ++ " " ++ s).toList = t.toList ++ ' ' :: s.toList := by simp
    rw [parts_eq, parts_eq, cut, Text.runs_append_separator t.toList s.toList (by decide),
      List.map_append]

/-- A compound without attributes: no white space, no combinator, escape or bracket. Tags, ids
and classes in ASCII are such compounds. -/
structure IsBareCompound (c : String) : Prop where
  ne_empty : c ≠ ""
  whole : ∀ x ∈ c.toList, endsPart x = false
  direct : Direct c.toList
  closed : ']' ∉ c.toList

variable {outer c b : String}

/-- An attribute in one piece adds nothing. One that is cut adds parts, the last of which ends
in its closing bracket. -/
theorem parts_attribute (apart : outer = "" ∨ ∃ t, outer = t ++ " ") (compound : IsBareCompound c)
    (direct : Direct b.toList) :
    ∃ front, parts (outer ++ c) = front ++ [.ofText c.toList] ∧
      ((∀ x ∈ b.toList, endsPart x = false) ∧
          parts (outer ++ (c ++ "[" ++ b ++ "]")) = front ++ [.ofText c.toList] ∨
        (∃ x ∈ b.toList, endsPart x = true) ∧ ∃ more tail, Direct tail ∧
          parts (outer ++ (c ++ "[" ++ b ++ "]")) =
            front ++ .ofText c.toList :: (more ++ [.ofText (tail ++ [']'])])) := by
  obtain ⟨front, behind⟩ := exists_parts_behind apart
  have one : Text.runs endsPart c.toList = [c.toList] :=
    Text.runs_of_none (by simpa using compound.ne_empty) compound.whole
  refine ⟨front, by rw [behind, one, List.map_singleton], ?_⟩
  rw [behind]
  have text : (c ++ "[" ++ b ++ "]").toList = c.toList ++ '[' :: (b.toList ++ [']']) := by simp
  have opened : ∀ s : List Char, (∀ x ∈ s, endsPart x = false) →
      ∀ x ∈ c.toList ++ '[' :: s, endsPart x = false := fun s free =>
    List.forall_mem_append.mpr ⟨compound.whole, List.forall_mem_cons.mpr ⟨by decide, free⟩⟩
  rw [text]
  cases cut : b.toList.find? endsPart with
  | none =>
    have free : ∀ x ∈ b.toList, endsPart x = false := by simpa using cut
    have closing : ∀ x ∈ b.toList ++ [']'], endsPart x = false :=
      List.forall_mem_append.mpr ⟨free, List.forall_mem_singleton.mpr (by decide)⟩
    refine .inl ⟨free, ?_⟩
    rw [Text.runs_of_none (by simp) (opened _ closing), List.map_singleton,
      Part.ofText_bracket compound.direct]
  | some x =>
    obtain ⟨ends, before, after, split, first⟩ := List.find?_eq_some_iff_append.mp cut
    have free : ∀ y ∈ before, endsPart y = false := fun y hy => by simpa using first y hy
    obtain ⟨rest, tail, last, inside⟩ :=
      exists_runs_snoc after (by decide : endsPart ']' = false)
    refine .inr ⟨⟨x, by simp [split], ends⟩, rest.map Part.ofText, tail, ?_, ?_⟩
    · intro y hy
      exact direct y (by simp [split, inside y hy])
    · have whole : c.toList ++ '[' :: (b.toList ++ [']']) =
          (c.toList ++ '[' :: before) ++ x :: (after ++ [']']) := by simp [split]
      rw [whole, Text.runs_append_separator _ _ ends,
        Text.runs_of_none (by simp) (opened before free), last]
      simp [Part.ofText_bracket compound.direct]

end Parts

/-! ## Selectors with an attribute -/

section Selectors

variable {selector : String} {p : Page} {h : Handle}

theorem holdsOf_of_selects {front : List Part} {last : Part}
    (read : parts selector = front ++ [last]) (selected : selects selector p h = true) :
    last.holdsOf p h = true := by
  rw [selects, read, List.reverse_append, List.reverse_singleton, List.singleton_append, holds,
    Bool.and_eq_true] at selected
  exact selected.1

theorem selects_eq_false {part : Part} (hp : part ∈ parts selector)
    (never : ¬ part.Satisfiable) : selects selector p h = false := by
  rw [Bool.eq_false_iff]
  intro selected
  obtain ⟨a, holds⟩ := exists_holdsOf_of_selects selected hp
  exact never (Part.satisfiable_of_holdsOf holds)

/-- Behind a compound an attribute is passed over on all pages just if there is no white space
and no `>` in it, or the selector without it asks for a class of the inspector's own and selects
nothing anyway. -/
theorem attribute_passed_over_iff (outer c b : String)
    (apart : outer = "" ∨ ∃ t, outer = t ++ " ") (compound : IsBareCompound c)
    (plain : ∀ x ∈ b.toList, x ∉ ['[', ']', '\\']) :
    (∀ s : Page.Snapshot, let p := Page.ofSnapshot s
        ∀ h < p.size, selects (outer ++ c ++ "[" ++ b ++ "]") p h = selects (outer ++ c) p h) ↔
      (∀ x ∈ b.toList, x ≠ '>' ∧ Text.isBlank x = false) ∨
        ∃ part ∈ parts (outer ++ c), ∃ k ∈ part.classes, Page.isMarker k = true := by
  have direct : Direct b.toList := fun x hx => by
    have other := plain x hx
    simp only [List.mem_cons, List.not_mem_nil, or_false, not_or] at other
    simp [other]
  have text : outer ++ c ++ "[" ++ b ++ "]" = outer ++ (c ++ "[" ++ b ++ "]") := by
    simp [String.append_assoc]
  have free : (∀ x ∈ b.toList, x ≠ '>' ∧ Text.isBlank x = false) ↔
      ∀ x ∈ b.toList, endsPart x = false := by simp [endsPart]
  have vain (part : Part) : (∃ k ∈ part.classes, Page.isMarker k = true) ↔ ¬ part.Satisfiable := by
    simp [Part.Satisfiable]
  obtain ⟨front, short, long⟩ := parts_attribute apart compound direct
  simp only [text, free, vain]
  rcases long with ⟨whole, same⟩ | ⟨⟨x, hx, ends⟩, more, tail, plainTail, long⟩
  · refine iff_of_true (fun s h _ => ?_) (.inl whole)
    rw [selects, selects, same, short]
  · have torn : ¬ ∀ x ∈ b.toList, endsPart x = false := fun all => by simp [all x hx] at ends
    rw [or_iff_right torn]
    constructor
    · intro same
      by_contra satisfiable
      push Not at satisfiable
      obtain ⟨s, h, inside, selected, fits⟩ := exists_fits_of_satisfiable short satisfiable
      rw [← same s h inside] at selected
      have last : parts (outer ++ (c ++ "[" ++ b ++ "]")) =
          (front ++ .ofText c.toList :: more) ++ [.ofText (tail ++ [']'])] := by simp [long]
      exact fits.not_showsBracket compound.closed
        (Part.showsBracket_of_holdsOf plainTail (holdsOf_of_selects last selected))
    · rintro ⟨part, hp, never⟩ s h -
      have later : part ∈ parts (outer ++ (c ++ "[" ++ b ++ "]")) := by
        rw [short] at hp
        rw [long]
        rcases List.mem_append.mp hp with hp | hp
        · exact List.mem_append_left _ hp
        · rw [List.mem_singleton.mp hp]
          simp
      rw [selects_eq_false hp never, selects_eq_false later never]

/-- A page of one element. -/
def lonePage (c : String) : Page.Snapshot where
  document := { tag := "div", classes := [c] }

/-- A link in a navigation bar and one beside it. -/
def linksPage : Page.Snapshot where
  document := {
    tag := "div"
    children := [{ tag := "nav", children := [{ tag := "a" }] }, { tag := "a" }] }

theorem attribute_passed_over_iff_of_links :
    let p := Page.ofSnapshot linksPage
    (selects "nav a[href=\"x\"]" p 2 = true ∧ selects "nav a[href=\"x\"]" p 3 = false) ∧
      ¬ ∀ s : Page.Snapshot, let p := Page.ofSnapshot s
        ∀ h < p.size, selects (".c" ++ "[" ++ "title=\"a b\"" ++ "]") p h = selects ".c" p h := by
  have link : IsBareCompound "a" :=
    ⟨by decide, by simp [endsPart, Text.isBlank], by simp [Direct], by decide⟩
  have named : IsBareCompound ".c" :=
    ⟨by decide, by simp [endsPart, Text.isBlank], by simp [Direct], by decide⟩
  constructor
  · have whole := (attribute_passed_over_iff "nav " "a" "href=\"x\""
      (.inr ⟨"nav", by decide⟩) link (by simp)).mpr (.inl (by simp [Text.isBlank]))
    exact ⟨(whole linksPage 2 (by decide)).trans (by decide +kernel),
      (whole linksPage 3 (by decide)).trans (by decide +kernel)⟩
  · intro same
    have cases := (attribute_passed_over_iff "" ".c" "title=\"a b\""
      (.inl rfl) named (by simp)).mp same
    rcases cases with whole | ⟨part, hp, k, hk, marker⟩
    · exact absurd (whole ' ' (by simp)).2 (by decide)
    · have unmarked : ∀ part ∈ parts ("" ++ ".c"),
          part.classes.toList.all (!Page.isMarker ·) = true := by decide +kernel
      have shown := List.all_eq_true.mp (unmarked part hp) k hk
      simp [marker] at shown

/-- A class is not found once a title with a space in it is asked for too. -/
theorem spaced_title_not_passed_over :
    selects ".c" (.ofSnapshot (lonePage "c")) 0 = true ∧
      selects (".c" ++ "[" ++ "title=\"a b\"" ++ "]") (.ofSnapshot (lonePage "c")) 0 = false := by
  decide +kernel

end Selectors

end AuthoredStyle.Selector
