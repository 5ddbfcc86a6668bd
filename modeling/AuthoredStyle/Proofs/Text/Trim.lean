import Mathlib.Data.List.DropRight
import AuthoredStyle.Text.Search

/-!
# Trimming and cutting composed texts

What trimming, word cutting and searching do to a text that is put together
from known parts. Trimming looks at the ends only, so a text that starts with
something visible keeps its start, whatever stands behind it.
-/

namespace AuthoredStyle.Text

def Blank (s : List Char) : Prop := ∀ c ∈ s, isBlank c = true

instance : DecidablePred Blank := fun s => decidable_of_iff (s.all isBlank = true) (by simp [Blank])

/-- No character is blank, and there is one. -/
def Solid (s : List Char) : Prop := s ≠ [] ∧ ∀ c ∈ s, isBlank c = false

instance : DecidablePred Solid := fun s =>
  decidable_of_iff (s.isEmpty = false ∧ s.all (!isBlank ·) = true) (by simp [Solid])

theorem blank_nil : Blank [] := fun _ hc => absurd hc List.not_mem_nil

theorem Blank.append {s t : List Char} (hs : Blank s) (ht : Blank t) : Blank (s ++ t) := by
  intro c hc
  rcases List.mem_append.mp hc with h | h
  · exact hs c h
  · exact ht c h

theorem Blank.reverse {s : List Char} (h : Blank s) : Blank s.reverse :=
  fun c hc => h c (List.mem_reverse.mp hc)

theorem Solid.exists_cons {s : List Char} (h : Solid s) :
    ∃ c rest, s = c :: rest ∧ isBlank c = false := by
  cases s with
  | nil => exact absurd rfl h.1
  | cons c rest => exact ⟨c, rest, rfl, h.2 c List.mem_cons_self⟩

section Ends

theorem trimEnd_cons_visible {c : Char} (s : List Char) (h : isBlank c = false) :
    trimEnd (c :: s) = c :: trimEnd s := by
  rw [trimEnd]
  split
  · rename_i gone
    simp [h, gone]
  · rfl

theorem trimEnd_append (s t : List Char) :
    trimEnd (s ++ t) = if trimEnd t = [] then trimEnd s else s ++ trimEnd t := by
  induction s with
  | nil =>
    split
    · rename_i gone
      simpa [trimEnd] using gone
    · rfl
  | cons c s ih =>
    rw [List.cons_append, trimEnd, ih]
    by_cases gone : trimEnd t = []
    · rw [if_pos gone, if_pos gone]
      rfl
    · rw [if_neg gone, if_neg gone]
      have visible : s ++ trimEnd t ≠ [] := by simp [gone]
      split
      · rename_i h
        exact absurd h visible
      · rfl

theorem trimEnd_eq_nil {s : List Char} (h : Blank s) : trimEnd s = [] := by
  induction s with
  | nil => rfl
  | cons c s ih =>
    have hc := h c List.mem_cons_self
    have hs := ih fun d hd => h d (List.mem_cons_of_mem c hd)
    simp [trimEnd, hs, hc]

theorem trimEnd_trimEnd (s : List Char) : trimEnd (trimEnd s) = trimEnd s := by
  induction s with
  | nil => rfl
  | cons c s ih =>
    rw [trimEnd]
    split
    · split
      · rfl
      · rename_i visible
        exact trimEnd_cons_visible [] (by simpa using visible)
    · rename_i kept
      rw [trimEnd, ih]
      split
      · rename_i gone
        exact absurd gone kept
      · rfl

theorem trimStart_append_blank {s : List Char} (t : List Char) (h : Blank s) :
    trimStart (s ++ t) = trimStart t :=
  List.dropWhile_append_of_pos h

theorem trimEnd_trimStart (s : List Char) : trimEnd (trimStart s) = trimStart (trimEnd s) := by
  induction s with
  | nil => rfl
  | cons c s ih =>
    by_cases blank : isBlank c = true
    · have onward : trimStart (c :: s) = trimStart s := by simp [trimStart, blank]
      rw [onward, ih, trimEnd]
      split
      · rename_i gone
        simp [gone, blank]
      · simp [trimStart, blank]
    · have visible : isBlank c = false := by simpa using blank
      have stays : trimStart (c :: s) = c :: s := by simp [trimStart, visible]
      rw [stays, trimEnd_cons_visible s visible]
      simp [trimStart, visible]

theorem trim_trim (s : List Char) : trim (trim s) = trim s := by
  have again : trimStart (trimStart (trimEnd s)) = trimStart (trimEnd s) :=
    List.dropWhile_idempotent _ _
  rw [trim, trim, trimEnd_trimStart, trimEnd_trimEnd, again]

theorem trim_trimEnd (s : List Char) : trim (trimEnd s) = trim s := by
  rw [trim, trim, trimEnd_trimEnd]

theorem trim_blank_append {s : List Char} (t : List Char) (h : Blank s) :
    trim (s ++ t) = trim t := by
  rw [trim, trim, trimEnd_append]
  split
  · rename_i gone
    rw [trimEnd_eq_nil h, gone]
  · exact trimStart_append_blank _ h

theorem trim_append_blank (s : List Char) {t : List Char} (h : Blank t) :
    trim (s ++ t) = trim s := by
  rw [trim, trimEnd_append, if_pos (trimEnd_eq_nil h), trim]

theorem trim_eq_nil {s : List Char} (h : Blank s) : trim s = [] := by
  rw [trim, trimEnd_eq_nil h]
  rfl

/-- Text behind something visible is trimmed at its end only. -/
theorem trim_append {s : List Char} (t : List Char) (h : Solid s) :
    trim (s ++ t) = s ++ trimEnd t := by
  have whole (u : List Char) (hu : ∀ c ∈ u, isBlank c = false) :
      trimEnd (u ++ t) = u ++ trimEnd t := by
    induction u with
    | nil => rfl
    | cons c u ih =>
      rw [List.cons_append, trimEnd_cons_visible _ (hu c List.mem_cons_self),
        ih fun d hd => hu d (List.mem_cons_of_mem c hd)]
      rfl
  obtain ⟨c, rest, rfl, visible⟩ := h.exists_cons
  rw [trim, whole _ h.2]
  simp [trimStart, visible]

theorem trimEnd_solid {s : List Char} (h : Solid s) : trimEnd s = s := by
  obtain ⟨visible, all⟩ := h
  clear visible
  induction s with
  | nil => rfl
  | cons c s ih =>
    rw [trimEnd_cons_visible s (all c List.mem_cons_self),
      ih fun d hd => all d (List.mem_cons_of_mem c hd)]

theorem trim_solid {s : List Char} (h : Solid s) : trim s = s := by
  simpa [trimEnd] using trim_append [] h

theorem trimEnd_snoc_visible (s : List Char) {c : Char} (visible : isBlank c = false) :
    trimEnd (s ++ [c]) = s ++ [c] := by
  have last : trimEnd [c] = [c] := trimEnd_cons_visible [] visible
  rw [trimEnd_append, last, if_neg (List.cons_ne_nil c [])]

theorem exists_trim_snoc (s : List Char) {c : Char} (visible : isBlank c = false) :
    ∃ t, trim (s ++ [c]) = t ++ [c] := by
  rw [trim, trimEnd_snoc_visible s visible, trimStart, List.dropWhile_append]
  split
  · exact ⟨[], by simp [visible]⟩
  · exact ⟨s.dropWhile isBlank, rfl⟩

end Ends

section Words

theorem fields_append_separator {separates : Char → Bool} (a : List Char) {c : Char}
    (b : List Char) (h : separates c = true) :
    fields separates (a ++ c :: b) = fields separates a ++ fields separates b := by
  induction a with
  | nil => simp [fields, h]
  | cons d a ih =>
    rw [List.cons_append, fields, fields]
    by_cases here : separates d = true
    · rw [if_pos here, if_pos here, ih]
      rfl
    · rw [if_neg here, if_neg here, ih]
      cases first : fields separates a with
      | nil => exact absurd first (fields_ne_nil separates a)
      | cons f fs => rfl

theorem fields_of_none {separates : Char → Bool} {s : List Char}
    (h : ∀ c ∈ s, separates c = false) : fields separates s = [s] := by
  induction s with
  | nil => rfl
  | cons c s ih =>
    rw [fields, h c List.mem_cons_self, ih fun d hd => h d (List.mem_cons_of_mem c hd)]
    rfl

theorem runs_append_separator {separates : Char → Bool} (a : List Char) {c : Char}
    (b : List Char) (h : separates c = true) :
    runs separates (a ++ c :: b) = runs separates a ++ runs separates b := by
  rw [runs, fields_append_separator a b h, List.filter_append]
  rfl

/-- Words are cut at every blank. -/
theorem words_append_blank (a : List Char) {c : Char} (b : List Char) (h : isBlank c = true) :
    words (a ++ c :: b) = words a ++ words b :=
  runs_append_separator a b h

theorem runs_of_none {separates : Char → Bool} {s : List Char} (some : s ≠ [])
    (h : ∀ c ∈ s, separates c = false) : runs separates s = [s] := by
  rw [runs, fields_of_none h]
  simp [some]

theorem flatten_fields_sublist (separates : Char → Bool) (s : List Char) :
    (fields separates s).flatten.Sublist s := by
  induction s with
  | nil => exact List.nil_sublist _
  | cons c s ih =>
    rw [fields]
    split
    · exact ih.cons c
    · obtain ⟨f, fs, first⟩ := List.exists_cons_of_ne_nil (fields_ne_nil separates s)
      rw [first] at ih ⊢
      exact ih.cons_cons c

theorem mem_of_mem_runs {separates : Char → Bool} {s w : List Char} (hw : w ∈ runs separates s)
    {c : Char} (hc : c ∈ w) : c ∈ s :=
  (flatten_fields_sublist separates s).mem
    (List.mem_flatten.mpr ⟨w, List.mem_of_mem_filter hw, hc⟩)

theorem exists_mem_fields {separates : Char → Bool} {c : Char} (other : separates c = false)
    {s : List Char} (hc : c ∈ s) : ∃ f ∈ fields separates s, c ∈ f := by
  induction s with
  | nil => cases hc
  | cons d s ih =>
    obtain ⟨f, fs, cut⟩ := List.exists_cons_of_ne_nil (fields_ne_nil separates s)
    rw [fields, cut]
    rw [cut] at ih
    rcases List.mem_cons.mp hc with rfl | hc
    · rw [other]
      exact ⟨c :: f, List.mem_cons_self, List.mem_cons_self⟩
    · obtain ⟨g, hg, inside⟩ := ih hc
      split
      · exact ⟨g, List.mem_cons_of_mem _ hg, inside⟩
      · rcases List.mem_cons.mp hg with rfl | hg
        · exact ⟨d :: g, List.mem_cons_self, List.mem_cons_of_mem d inside⟩
        · exact ⟨g, List.mem_cons_of_mem _ hg, inside⟩

theorem exists_mem_runs {separates : Char → Bool} {c : Char} (other : separates c = false)
    {s : List Char} (hc : c ∈ s) : ∃ r ∈ runs separates s, c ∈ r := by
  obtain ⟨f, hf, inside⟩ := exists_mem_fields other hc
  exact ⟨f, List.mem_filter.mpr ⟨hf, by simpa using List.ne_nil_of_mem inside⟩, inside⟩

/-- Cutting at separators of two kinds cuts the fields of the one at the other. -/
theorem fields_or (p q : Char → Bool) (s : List Char) :
    fields (fun c => p c || q c) s = (fields q s).flatMap (fields p) := by
  induction s with
  | nil => rfl
  | cons c s ih =>
    obtain ⟨f, fs, first⟩ := List.exists_cons_of_ne_nil (fields_ne_nil q s)
    obtain ⟨g, gs, inner⟩ := List.exists_cons_of_ne_nil (fields_ne_nil p f)
    rw [first, List.flatMap_cons, inner, List.cons_append] at ih
    simp only [fields, first, ih]
    cases q c with
    | true => simp [fields, inner]
    | false => cases here : p c <;> simp [fields, here, inner]

theorem runs_or (p q : Char → Bool) (s : List Char) :
    runs (fun c => p c || q c) s = (runs q s).flatMap (runs p) := by
  rw [runs, fields_or, runs]
  generalize fields q s = fs
  induction fs with
  | nil => rfl
  | cons f fs ih =>
    rw [List.flatMap_cons, List.filter_append, ih]
    cases f <;> rfl

/-- Runs that each have a separator in front are found again. The last one is cut
off first. -/
theorem runs_led {separates : Char → Bool} {lead : Char} {rs : List (List Char)}
    (leads : separates lead = true)
    (h : ∀ r ∈ rs, r ≠ [] ∧ ∀ c ∈ r, separates c = false) :
    runs separates (rs.flatMap (lead :: ·)) = rs := by
  induction rs using List.reverseRecOn with
  | nil => rfl
  | append_singleton rs r ih =>
    obtain ⟨some, free⟩ := h r (by simp)
    rw [List.flatMap_append, List.flatMap_singleton, runs_append_separator _ r leads,
      runs_of_none some free, ih fun q hq => h q (List.mem_append_left [r] hq)]

theorem words_solid {w : List Char} (h : Solid w) : words w = [w] := runs_of_none h.1 h.2

theorem words_spaced {ws : List (List Char)} (h : ∀ w ∈ ws, Solid w) :
    words ([' '].intercalate ws) = ws := by
  induction ws with
  | nil => rfl
  | cons w ws ih =>
    have hw := h w List.mem_cons_self
    have hws := ih fun v hv => h v (List.mem_cons_of_mem w hv)
    by_cases last : ws = []
    · subst last
      rw [List.intercalate_singleton, words_solid hw]
    · have space : isBlank ' ' = true := rfl
      rw [List.intercalate_cons_of_ne_nil last, List.append_assoc, List.singleton_append,
        words_append_blank w _ space, words_solid hw, hws]
      rfl

/-- Words with single spaces between them are collapsed already. -/
theorem collapse_spaced {ws : List (List Char)} (h : ∀ w ∈ ws, Solid w) :
    collapse ([' '].intercalate ws) = [' '].intercalate ws := by
  rw [collapse, words_spaced h]

theorem intercalate_solid_ne_nil {ws : List (List Char)} (some : ws ≠ [])
    (h : ∀ w ∈ ws, Solid w) : [' '].intercalate ws ≠ [] := by
  intro empty
  have none := words_spaced h
  rw [empty] at none
  exact some none.symm

theorem trimEnd_spaced {ws : List (List Char)} (h : ∀ w ∈ ws, Solid w) :
    trimEnd ([' '].intercalate ws) = [' '].intercalate ws := by
  induction ws with
  | nil => rfl
  | cons w ws ih =>
    have hw := h w List.mem_cons_self
    have hws : ∀ v ∈ ws, Solid v := fun v hv => h v (List.mem_cons_of_mem w hv)
    by_cases last : ws = []
    · subst last
      rw [List.intercalate_singleton, trimEnd_solid hw]
    · have visible := intercalate_solid_ne_nil last hws
      rw [List.intercalate_cons_of_ne_nil last, trimEnd_append, ih hws, if_neg visible]

theorem trim_spaced {ws : List (List Char)} (h : ∀ w ∈ ws, Solid w) :
    trim ([' '].intercalate ws) = [' '].intercalate ws := by
  cases ws with
  | nil => rfl
  | cons w ws =>
    obtain ⟨c, rest, rfl, visible⟩ := (h w List.mem_cons_self).exists_cons
    rw [trim, trimEnd_spaced h]
    cases ws with
    | nil => simp [trimStart, visible]
    | cons v ws => simp [List.intercalate_cons_cons, trimStart, visible]

end Words

section Search

@[simp] theorem dropLead?_append (lead s : List Char) : dropLead? lead (lead ++ s) = some s := by
  induction lead with
  | nil => rfl
  | cons c lead ih => simpa [dropLead?] using ih

@[simp] theorem dropEnding?_append (s ending : List Char) :
    dropEnding? ending (s ++ ending) = some s := by
  simp [dropEnding?]

theorem dropLead?_other {a c : Char} (lead s : List Char) (h : a ≠ c) :
    dropLead? (a :: lead) (c :: s) = none := by
  simp [dropLead?, h]

theorem cut?_first {mark : Char} {before : List Char} (after : List Char) (h : mark ∉ before) :
    cut? [mark] (before ++ mark :: after) = some (before, after) := by
  induction before with
  | nil => simp [cut?, dropLead?]
  | cons c before ih =>
    obtain ⟨other, later⟩ := List.ne_and_not_mem_of_not_mem_cons h
    rw [List.cons_append, cut?, dropLead?_other _ _ other, ih later]
    rfl

theorem cut?_absent {mark : Char} {s : List Char} (h : mark ∉ s) : cut? [mark] s = none := by
  cases cut : cut? [mark] s with
  | none => rfl
  | some parts =>
    refine absurd ?_ h
    rw [eq_of_cut? (cut : cut? [mark] s = some (parts.1, parts.2))]
    simp

theorem cut?_singleton_eq_some_iff {mark : Char} {s before after : List Char} :
    cut? [mark] s = some (before, after) ↔ s = before ++ mark :: after ∧ mark ∉ before := by
  constructor
  · intro cut
    have whole : s = before ++ mark :: after := by simpa using eq_of_cut? cut
    obtain ⟨front, back, rfl, first⟩ := List.eq_append_cons_of_mem
      (whole ▸ List.mem_append_right before List.mem_cons_self : mark ∈ s)
    cases (cut?_first back first).symm.trans cut
    exact ⟨rfl, first⟩
  · rintro ⟨rfl, first⟩
    exact cut?_first after first

theorem eq_of_dropEnding? {ending s rest : List Char} (h : dropEnding? ending s = some rest) :
    s = rest ++ ending := by
  obtain ⟨reversed, dropped, rfl⟩ := Option.map_eq_some_iff.mp h
  rw [← List.reverse_reverse s, eq_of_dropLead? dropped]
  simp

theorem isSome_dropEnding?_iff {ending s : List Char} :
    (dropEnding? ending s).isSome ↔ ending <:+ s := by
  constructor
  · intro ended
    obtain ⟨rest, dropped⟩ := Option.isSome_iff_exists.mp ended
    exact ⟨rest, (eq_of_dropEnding? dropped).symm⟩
  · rintro ⟨rest, rfl⟩
    rw [dropEnding?_append, Option.isSome_some]

theorem isSome_dropLead?_iff {lead s : List Char} : (dropLead? lead s).isSome ↔ lead <+: s := by
  constructor
  · intro led
    obtain ⟨rest, dropped⟩ := Option.isSome_iff_exists.mp led
    exact ⟨rest, (eq_of_dropLead? dropped).symm⟩
  · rintro ⟨rest, rfl⟩
    rw [dropLead?_append, Option.isSome_some]

theorem holds_iff {pattern s : List Char} : holds pattern s = true ↔ pattern <:+: s := by
  rw [holds]
  induction s with
  | nil =>
    rw [cut?, List.infix_nil]
    cases pattern <;> simp
  | cons c s ih =>
    rw [cut?, List.infix_cons_iff, ← ih, ← isSome_dropLead?_iff]
    cases dropLead? pattern (c :: s) <;> simp

theorem cutLast?_eq_none_iff {mark : Char} {s : List Char} : cutLast? mark s = none ↔ mark ∉ s := by
  induction s with
  | nil => simp [cutLast?]
  | cons c s ih =>
    rw [cutLast?, List.mem_cons, not_or, ← ih]
    cases cutLast? mark s <;> simp [eq_comm]

theorem cutLast?_last {mark : Char} {after : List Char} (before : List Char) (h : mark ∉ after) :
    cutLast? mark (before ++ mark :: after) = some (before, after) := by
  induction before with
  | nil => simp [cutLast?, cutLast?_eq_none_iff.mpr h]
  | cons c before ih => rw [List.cons_append, cutLast?, ih]

end Search

end AuthoredStyle.Text
