import AuthoredStyle.Proofs.Sheet.Path
import AuthoredStyle.Proofs.Sheet.Passing
import AuthoredStyle.Proofs.Text.Collapse

/-!
# Lists of selectors under lists of selectors

A list is cut at its commas, and a nested list is combined with the one above it, each
parent with each child. Here selectors are any texts without quotes, brackets, braces,
semicolons, commas, slashes and at-signs; they need not be selectors of CSS. Their blanks
may be collapsed before they are combined or after it.
-/

namespace AuthoredStyle.Sheet

open Text (Blank StartsVisible EndsVisible collapse)

/-- Neither anything that a scan looks at nor anything that a list of selectors is cut
by, that starts an at-rule or that opens a comment. -/
def IsSelectorChar (c : Char) : Prop := c ∉ marks ++ [',', '[', ']', '@', '/']

instance : DecidablePred IsSelectorChar := fun _ => inferInstanceAs (Decidable (_ ∉ _))

theorem IsSelectorChar.isOrdinary {c : Char} (h : IsSelectorChar c) : IsOrdinary c :=
  fun mark => h (List.mem_append_left _ mark)

theorem isSelectorChar_of_isBlank {c : Char} (blank : Text.isBlank c = true) :
    IsSelectorChar c := by
  intro mark
  have none : (marks ++ [',', '[', ']', '@', '/']).all (!Text.isBlank ·) = true := by decide
  have visible := List.all_eq_true.mp none c mark
  simp [blank] at visible

/-! ## Cutting at commas -/

theorem commaFields_ne_nil (depth : Nat) (s : List Char) : commaFields depth s ≠ [] := by
  cases s with
  | nil => simp [commaFields]
  | cons c s =>
    rw [commaFields]
    split
    · simp
    · dsimp only
      split <;> simp

theorem commaFields_cons {c : Char} (plain : IsSelectorChar c) {s : List Char}
    {f : List Char} {fs : List (List Char)} (later : commaFields 0 s = f :: fs) :
    commaFields 0 (c :: s) = (c :: f) :: fs := by
  simp only [IsSelectorChar, marks, List.cons_append, List.nil_append, List.mem_cons,
    List.not_mem_nil, or_false, not_or] at plain
  simp [commaFields, plain, later]

/-- Text behind a list belongs to its last field. -/
theorem exists_commaFields_append {w : List Char} (comma : ',' ∉ w) (depth : Nat) (s : List Char) :
    ∃ front last, commaFields depth s = front ++ [last] ∧
      commaFields depth (s ++ w) = front ++ [last ++ w] := by
  induction s generalizing depth with
  | nil => exact ⟨[], [], rfl, commaFields_of_none comma⟩
  | cons c s ih =>
    rw [List.cons_append, commaFields, commaFields]
    by_cases cut : c = ',' ∧ depth = 0
    · obtain ⟨front, last, short, long⟩ := ih 0
      rw [if_pos cut, if_pos cut, short, long]
      exact ⟨[] :: front, last, rfl, rfl⟩
    · rw [if_neg cut, if_neg cut]
      dsimp only
      obtain ⟨front, last, short, long⟩ := ih (if c = '(' ∨ c = '[' then depth + 1
        else if c = ')' ∨ c = ']' then depth - 1 else depth)
      rw [short, long]
      cases front with
      | nil => exact ⟨[], c :: last, rfl, rfl⟩
      | cons f front => exact ⟨(c :: f) :: front, last, rfl, rfl⟩

theorem selectorList_append_blank (s : List Char) {w : List Char} (blank : Blank w) :
    selectorList (s ++ w) = selectorList s := by
  have comma : ',' ∉ w := fun h => absurd (blank ',' h) (by decide)
  have within (u : List Char) : collapse (u ++ w) = collapse u := by
    rw [← Text.collapse_trim (u ++ w), Text.trim_append_blank u blank, Text.collapse_trim]
  obtain ⟨front, last, short, long⟩ := exists_commaFields_append comma 0 s
  simp [selectorList, short, long, within last]

theorem selectorList_cons_blank {b : Char} (s : List Char) (blank : Text.isBlank b = true) :
    selectorList (b :: s) = selectorList s := by
  obtain ⟨f, fs, later⟩ := List.exists_cons_of_ne_nil (commaFields_ne_nil 0 s)
  have whole := commaFields_cons (isSelectorChar_of_isBlank blank) later
  simp [selectorList, whole, later, Text.collapse_cons_blank f blank]

theorem selectorList_trim (s : List Char) : selectorList (Text.trim s) = selectorList s := by
  have start (t : List Char) : selectorList (Text.trimStart t) = selectorList t := by
    induction t with
    | nil => rfl
    | cons c t ih =>
      by_cases blank : Text.isBlank c = true
      · have next : Text.trimStart (c :: t) = Text.trimStart t := by simp [Text.trimStart, blank]
        rw [next, ih, selectorList_cons_blank t blank]
      · have stays : Text.trimStart (c :: t) = c :: t := by simp [Text.trimStart, blank]
        rw [stays]
  obtain ⟨w, blank, whole⟩ := Text.exists_trimEnd_append s
  calc selectorList (Text.trim s) = selectorList (Text.trimEnd s) := start _
    _ = selectorList (Text.trimEnd s ++ w) := (selectorList_append_blank _ blank).symm
    _ = selectorList s := by rw [← whole]

theorem commaFields_comma {s : List Char} (plain : ∀ c ∈ s, IsSelectorChar c) (t : List Char) :
    commaFields 0 (s ++ ',' :: t) = s :: commaFields 0 t := by
  induction s with
  | nil => simp [commaFields]
  | cons c s ih =>
    have later := ih fun d hd => plain d (List.mem_cons_of_mem c hd)
    exact commaFields_cons (plain c List.mem_cons_self) later

/-- The text of a list. -/
def listed (selectors : List (List Char)) : List Char := [','].intercalate selectors

theorem mem_listed {selectors : List (List Char)} {c : Char} (h : c ∈ listed selectors) :
    c = ',' ∨ ∃ s ∈ selectors, c ∈ s := by
  induction selectors with
  | nil => exact absurd h List.not_mem_nil
  | cons s selectors ih =>
    by_cases last : selectors = []
    · subst last
      exact .inr ⟨s, List.mem_cons_self, by simpa [listed] using h⟩
    · rw [listed, List.intercalate_cons_of_ne_nil last, List.append_assoc] at h
      rcases List.mem_append.mp h with here | h
      · exact .inr ⟨s, List.mem_cons_self, here⟩
      · rcases List.mem_cons.mp h with comma | h
        · exact .inl comma
        · rcases ih h with comma | ⟨t, ht, there⟩
          · exact .inl comma
          · exact .inr ⟨t, List.mem_cons_of_mem s ht, there⟩

/-- Written between commas, with any blanks around it. -/
structure IsPlainSelector (s : List Char) : Prop where
  visible : ¬ Blank s
  chars : ∀ c ∈ s, IsSelectorChar c

theorem isPlainSelector_iff {s : List Char} :
    IsPlainSelector s ↔ ¬ Blank s ∧ s.all (IsSelectorChar ·) = true := by
  rw [List.all_eq_true]
  exact ⟨fun h => ⟨h.visible, fun c hc => decide_eq_true (h.chars c hc)⟩,
    fun h => ⟨h.1, fun c hc => of_decide_eq_true (h.2 c hc)⟩⟩

instance : DecidablePred IsPlainSelector := fun _ => decidable_of_iff' _ isPlainSelector_iff

theorem commaFields_listed {selectors : List (List Char)} (some : selectors ≠ [])
    (plain : ∀ s ∈ selectors, IsPlainSelector s) : commaFields 0 (listed selectors) = selectors := by
  induction selectors with
  | nil => exact absurd rfl some
  | cons s selectors ih =>
    have here := (plain s List.mem_cons_self).chars
    by_cases last : selectors = []
    · subst last
      have comma : ',' ∉ s := fun h => here ',' h (by decide)
      rw [listed, List.intercalate_singleton, commaFields_of_none comma]
    · have later := ih last fun t ht => plain t (List.mem_cons_of_mem s ht)
      rw [listed, List.intercalate_cons_of_ne_nil last, List.append_assoc, List.singleton_append,
        commaFields_comma here, ← listed, later]

theorem selectorList_listed {selectors : List (List Char)} (some : selectors ≠ [])
    (plain : ∀ s ∈ selectors, IsPlainSelector s) :
    selectorList (Text.trim (listed selectors)) = selectors.map collapse := by
  rw [selectorList_trim, selectorList, commaFields_listed some plain, List.filter_eq_self]
  intro t ht
  obtain ⟨s, hs, rfl⟩ := List.mem_map.mp ht
  have named : collapse s ≠ [] := mt Text.collapse_eq_nil_iff.mp (plain s hs).visible
  simpa using named

/-! ## Parents and children -/

/-- A child selector below a parent: the parent in place of each ampersand, or in front. -/
def below (parent child : List Char) : List Char :=
  if '&' ∈ child then child.flatMap fun c => if c = '&' then parent else [c]
  else parent ++ ' ' :: child

/-- Each selector, blanks around it left off, below each parent, the parents in the outer
order. -/
def pairs (parents selectors : List (List Char)) : List (List Char) :=
  if parents = [] then selectors.map Text.trim
  else parents.flatMap fun parent => selectors.map fun s => below parent (Text.trim s)

/-- A selector without blanks around it. -/
structure IsTrimmed (s : List Char) : Prop where
  some : s ≠ []
  starts : StartsVisible s
  ends : EndsVisible s
  chars : ∀ c ∈ s, IsSelectorChar c

theorem IsPlainSelector.isTrimmed {s : List Char} (h : IsPlainSelector s) :
    IsTrimmed (Text.trim s) where
  some := by
    intro none
    apply h.visible
    rw [← Text.collapse_eq_nil_iff, ← Text.collapse_trim, none]
    rfl
  starts := Text.startsVisible_trim s
  ends := Text.endsVisible_trim s
  chars := fun c hc => h.chars c ((Text.trim_sublist s).subset hc)

theorem IsTrimmed.isPlainSelector {s : List Char} (h : IsTrimmed s) : IsPlainSelector s where
  visible := fun blank => Text.collapse_ne_nil h.ends h.some (Text.collapse_eq_nil_iff.mpr blank)
  chars := h.chars

theorem isTrimmed_below {parent child : List Char} (hp : IsTrimmed parent) (hc : IsTrimmed child) :
    IsTrimmed (below parent child) := by
  have space : IsSelectorChar ' ' := by decide
  unfold below
  split
  · refine ⟨Text.substitute_ne_nil hp.some hc.some,
      Text.startsVisible_substitute hp.some hp.starts hc.starts,
      Text.endsVisible_substitute hp.some hp.ends hc.ends, fun d hd => ?_⟩
    obtain ⟨c, mem, image⟩ := List.mem_flatMap.mp hd
    split at image
    · exact hp.chars d image
    · rw [List.mem_singleton.mp image]
      exact hc.chars c mem
  · refine ⟨by simp, ?_, ?_, fun d hd => ?_⟩
    · intro c first
      rw [List.head?_append_of_ne_nil _ hp.some] at first
      exact hp.starts c first
    · intro c last
      rw [List.getLast?_append_of_ne_nil _ (List.cons_ne_nil ' ' child)] at last
      obtain ⟨d, t, rfl⟩ := List.exists_cons_of_ne_nil hc.some
      rw [List.getLast?_cons_cons] at last
      exact hc.ends c last
    · rcases List.mem_append.mp hd with hd | hd
      · exact hp.chars d hd
      · rcases List.mem_cons.mp hd with rfl | hd
        · exact space
        · exact hc.chars d hd

theorem isTrimmed_of_mem_pairs {parents selectors : List (List Char)}
    (hp : ∀ p ∈ parents, IsTrimmed p) (hs : ∀ s ∈ selectors, IsPlainSelector s) :
    ∀ s ∈ pairs parents selectors, IsTrimmed s := by
  intro s h
  unfold pairs at h
  split at h
  · obtain ⟨t, ht, rfl⟩ := List.mem_map.mp h
    exact (hs t ht).isTrimmed
  · obtain ⟨p, mem, h⟩ := List.mem_flatMap.mp h
    obtain ⟨t, ht, rfl⟩ := List.mem_map.mp h
    exact isTrimmed_below (hp p mem) (hs t ht).isTrimmed

theorem pairs_ne_nil (parents : List (List Char)) {selectors : List (List Char)}
    (some : selectors ≠ []) : pairs parents selectors ≠ [] := by
  obtain ⟨s, rest, rfl⟩ := List.exists_cons_of_ne_nil some
  unfold pairs
  split
  · simp
  · rename_i named
    obtain ⟨p, others, rfl⟩ := List.exists_cons_of_ne_nil named
    simp

theorem collapse_below {parent s : List Char} (hp : IsTrimmed parent) (hs : IsPlainSelector s) :
    collapse (below parent (Text.trim s)) = nestUnder (collapse parent) (collapse s) := by
  have visible : Text.isBlank '&' = false := rfl
  have same : '&' ∈ Text.trim s ↔ '&' ∈ collapse s := by
    rw [← Text.collapse_trim, Text.mem_collapse visible]
  have named : collapse s ≠ [] := mt Text.collapse_eq_nil_iff.mp hs.visible
  by_cases here : '&' ∈ Text.trim s
  · have inside : (collapse s).contains '&' = true := by simpa using same.mp here
    have replaced := Text.collapse_substitute visible hp.some hp.starts hp.ends (Text.trim s)
    rw [Text.collapse_trim] at replaced
    rw [below, if_pos here, nestUnder, if_pos inside, ← replaced]
    rfl
  · have outside : ¬ (collapse s).contains '&' = true := by
      simpa using mt same.mpr here
    have some := Text.collapse_ne_nil hp.ends hp.some
    have space : Text.isBlank ' ' = true := rfl
    rw [below, if_neg here, nestUnder, if_neg outside, Text.collapse_append_blank some _ space,
      Text.collapse_trim, Text.behindSpace, if_neg named]

/-- Blanks may be collapsed before selectors are combined or after it. -/
theorem nest_collapse {parents selectors : List (List Char)} (hp : ∀ p ∈ parents, IsTrimmed p)
    (hs : ∀ s ∈ selectors, IsPlainSelector s) :
    nest (parents.map collapse) (selectors.map collapse) =
      (pairs parents selectors).map collapse := by
  by_cases first : parents = []
  · subst first
    have trimmed : collapse ∘ Text.trim = collapse := funext Text.collapse_trim
    simp [nest, pairs, trimmed]
  · have below' (p : List Char) (mem : p ∈ parents) :
        (selectors.map collapse).map (nestUnder (collapse p)) =
          (selectors.map fun s => below p (Text.trim s)).map collapse := by
      rw [List.map_map, List.map_map]
      refine List.map_congr_left fun s mem' => ?_
      exact (collapse_below (hp p mem) (hs s mem')).symm
    rw [pairs, if_neg first, List.map_flatMap]
    simp only [nest, List.isEmpty_map, List.isEmpty_iff, first, if_false, List.flatMap_map]
    exact List.flatMap_congr below'

end AuthoredStyle.Sheet
