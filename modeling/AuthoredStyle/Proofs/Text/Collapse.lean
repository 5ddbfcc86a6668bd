import AuthoredStyle.Proofs.Text.Words
import Mathlib.Data.List.Chain

/-!
# Collapsed text

Collapsing goes through a text from its start: leading blanks go, visible characters
stay, and blanks between two of them become one space. So it may be done before or after
a visible character gives way to a text that is visible at both ends.
-/

namespace AuthoredStyle.Text

section Words

theorem solid_of_mem_words {s w : List Char} (h : w ∈ words s) : Solid w := by
  obtain ⟨field, some⟩ := List.mem_filter.mp h
  exact ⟨by simpa using some, free_of_mem_fields field⟩

theorem collapse_collapse (s : List Char) : collapse (collapse s) = collapse s :=
  collapse_spaced fun _ h => solid_of_mem_words h

theorem trim_collapse (s : List Char) : trim (collapse s) = collapse s :=
  trim_spaced fun _ h => solid_of_mem_words h

end Words

section Visible

/-- Visible at its start, or empty. -/
def StartsVisible (s : List Char) : Prop := ∀ c, s.head? = some c → isBlank c = false

/-- Visible at its end, or empty. -/
def EndsVisible (s : List Char) : Prop := ∀ c, s.getLast? = some c → isBlank c = false

theorem startsVisible_or (s : List Char) :
    StartsVisible s ∨ ∃ b t, s = b :: t ∧ isBlank b = true := by
  cases s with
  | nil => exact .inl fun c hc => by cases hc
  | cons c s =>
    by_cases blank : isBlank c = true
    · exact .inr ⟨c, s, rfl, blank⟩
    · refine .inl fun d hd => ?_
      cases hd
      simpa using blank

theorem StartsVisible.append {s t : List Char} (hs : StartsVisible s) (ht : StartsVisible t) :
    StartsVisible (s ++ t) := by
  cases s with
  | nil => exact ht
  | cons c s => exact hs

theorem EndsVisible.of_suffix {s t : List Char} (h : EndsVisible t) (suffix : s <:+ t) :
    EndsVisible s := by
  intro c hc
  obtain ⟨front, rfl⟩ := suffix
  refine h c ?_
  rw [List.getLast?_append, hc]
  rfl

theorem startsVisible_trim (s : List Char) : StartsVisible (trim s) := by
  intro c hc
  have first := List.head?_dropWhile_not isBlank (trimEnd s)
  change (trim s).head? = _ at hc
  rw [trim, trimStart] at hc
  rw [hc] at first
  simpa using first

theorem endsVisible_trimEnd (s : List Char) : EndsVisible (trimEnd s) := by
  induction s with
  | nil => exact fun c hc => by cases hc
  | cons c s ih =>
    rw [trimEnd]
    split
    · split
      · exact fun d hd => by cases hd
      · intro d hd
        cases hd
        simpa using ‹¬ isBlank c = true›
    · intro d hd
      rename_i kept
      obtain ⟨e, t, same⟩ := List.exists_cons_of_ne_nil kept
      rw [same, List.getLast?_cons_cons, ← same] at hd
      exact ih d hd

theorem endsVisible_trim (s : List Char) : EndsVisible (trim s) :=
  (endsVisible_trimEnd s).of_suffix (List.dropWhile_suffix _)

end Visible

section Collapse

variable {b c : Char}

theorem collapse_cons_blank (s : List Char) (blank : isBlank b = true) :
    collapse (b :: s) = collapse s := by
  have cut := words_append_blank [] s blank
  rw [List.nil_append] at cut
  rw [collapse, cut]
  rfl

theorem collapse_cons_visible {s : List Char} (visible : isBlank c = false)
    (starts : StartsVisible s) : collapse (c :: s) = c :: collapse s := by
  cases s with
  | nil =>
    have word : Solid [c] := ⟨by simp, by simpa using visible⟩
    rw [collapse, words_solid word, List.intercalate_singleton]
    rfl
  | cons d s =>
    have second : isBlank d = false := starts d rfl
    obtain ⟨f, fs, cut⟩ := List.exists_cons_of_ne_nil (fields_ne_nil isBlank s)
    have later : words (d :: s) = (d :: f) :: fs.filter (!·.isEmpty) := by
      simp [words, runs, fields, second, cut]
    have whole : words (c :: d :: s) = (c :: d :: f) :: fs.filter (!·.isEmpty) := by
      simp [words, runs, fields, visible, second, cut]
    rw [collapse, collapse, later, whole]
    cases fs.filter (!·.isEmpty) with
    | nil => simp
    | cons g gs => simp [List.intercalate_cons_cons]

/-- What follows a visible end and a blank stands behind one space. -/
def behindSpace (s : List Char) : List Char := if s = [] then [] else ' ' :: s

theorem intercalate_append {xs : List (List Char)} (some : xs ≠ []) (ys : List (List Char)) :
    [' '].intercalate (xs ++ ys) = [' '].intercalate xs ++
      if ys = [] then [] else ' ' :: [' '].intercalate ys := by
  by_cases last : ys = []
  · simp [last]
  · induction xs with
    | nil => exact absurd rfl some
    | cons x xs ih =>
      by_cases one : xs = []
      · subst one
        simp [List.intercalate_cons_of_ne_nil last, last]
      · rw [List.cons_append, List.intercalate_cons_of_ne_nil (by simp [one]), ih one,
          List.intercalate_cons_of_ne_nil one]
        simp

theorem words_eq_nil_of_collapse {s : List Char} (h : collapse s = []) : words s = [] := by
  by_contra some
  exact intercalate_solid_ne_nil some (fun _ h => solid_of_mem_words h) h

theorem collapse_append_blank {s : List Char} (some : collapse s ≠ []) (t : List Char)
    (blank : isBlank b = true) :
    collapse (s ++ b :: t) = collapse s ++ behindSpace (collapse t) := by
  have named : words s ≠ [] := by
    intro none
    exact some (by rw [collapse, none]; rfl)
  have gone : words t = [] ↔ collapse t = [] := by
    refine ⟨fun none => ?_, words_eq_nil_of_collapse⟩
    rw [collapse, none]
    rfl
  rw [collapse, words_append_blank s t blank, intercalate_append named]
  simp only [gone]
  rfl

theorem collapse_visible_blank (t : List Char) (visible : isBlank c = false)
    (blank : isBlank b = true) : collapse (c :: b :: t) = c :: behindSpace (collapse t) := by
  have one : collapse [c] = [c] := collapse_cons_visible visible (by intro d hd; cases hd)
  have first : collapse [c] ≠ [] := by simp [one]
  have cut := collapse_append_blank first t blank
  rwa [one] at cut

theorem collapse_cons_ne_nil (s : List Char) (visible : isBlank c = false) :
    collapse (c :: s) ≠ [] := by
  rcases startsVisible_or s with starts | ⟨b, t, rfl, blank⟩
  · rw [collapse_cons_visible visible starts]
    exact List.cons_ne_nil _ _
  · rw [collapse_visible_blank t visible blank]
    exact List.cons_ne_nil _ _

theorem collapse_eq_nil_iff {s : List Char} : collapse s = [] ↔ Blank s := by
  induction s with
  | nil => exact ⟨fun _ => blank_nil, fun _ => rfl⟩
  | cons c s ih =>
    by_cases blank : isBlank c = true
    · rw [collapse_cons_blank s blank, ih]
      simp [Blank, blank]
    · have visible : isBlank c = false := by simpa using blank
      refine ⟨fun none => absurd none (collapse_cons_ne_nil s visible), fun all => ?_⟩
      exact absurd (all c List.mem_cons_self) blank

theorem collapse_ne_nil {s : List Char} (ends : EndsVisible s) (some : s ≠ []) :
    collapse s ≠ [] := by
  intro none
  have last := List.getLast?_eq_some_getLast some
  have blank := collapse_eq_nil_iff.mp none _ (List.getLast_mem some)
  rw [ends _ last] at blank
  cases blank

/-- Nothing is collapsed at a border with something visible on both sides. -/
theorem collapse_append {s t : List Char} (ends : EndsVisible s) (starts : StartsVisible t) :
    collapse (s ++ t) = collapse s ++ collapse t := by
  induction s with
  | nil => rfl
  | cons c s ih =>
    have later := ih (ends.of_suffix (List.suffix_cons c s))
    by_cases blank : isBlank c = true
    · rw [List.cons_append, collapse_cons_blank _ blank, collapse_cons_blank _ blank, later]
    · have visible : isBlank c = false := by simpa using blank
      rcases startsVisible_or s with near | ⟨b, u, rfl, gap⟩
      · rw [List.cons_append, collapse_cons_visible visible (near.append starts), later,
          collapse_cons_visible visible near, List.cons_append]
      · have tail : EndsVisible u := ends.of_suffix ⟨[c, b], rfl⟩
        have more : u ≠ [] := by
          rintro rfl
          have last : isBlank b = false := ends b rfl
          rw [gap] at last
          cases last
        rw [List.cons_append, collapse_cons_blank _ gap, collapse_cons_blank _ gap] at later
        rw [List.cons_append, List.cons_append, collapse_visible_blank _ visible gap,
          collapse_visible_blank _ visible gap, later]
        simp [behindSpace, collapse_ne_nil tail more]

theorem collapse_trimStart (s : List Char) : collapse (trimStart s) = collapse s := by
  induction s with
  | nil => rfl
  | cons c s ih =>
    by_cases blank : isBlank c = true
    · have next : trimStart (c :: s) = trimStart s := by simp [trimStart, blank]
      rw [next, ih, collapse_cons_blank s blank]
    · have stays : trimStart (c :: s) = c :: s := by simp [trimStart, blank]
      rw [stays]

theorem exists_trimEnd_append (s : List Char) : ∃ w, Blank w ∧ s = trimEnd s ++ w := by
  induction s with
  | nil => exact ⟨[], blank_nil, rfl⟩
  | cons c s ih =>
    obtain ⟨w, all, same⟩ := ih
    rw [trimEnd]
    split
    · rename_i gone
      rw [gone, List.nil_append] at same
      subst same
      split
      · rename_i blank
        exact ⟨c :: s, List.forall_mem_cons.mpr ⟨blank, all⟩, rfl⟩
      · exact ⟨s, all, rfl⟩
    · exact ⟨w, all, by rw [List.cons_append, ← same]⟩

theorem trim_sublist (s : List Char) : (trim s).Sublist s := by
  obtain ⟨w, -, whole⟩ := exists_trimEnd_append s
  have front : (trimEnd s).Sublist s := by
    nth_rewrite 2 [whole]
    exact List.sublist_append_left _ _
  exact (List.dropWhile_sublist _).trans front

theorem trim_eq_self {s : List Char} (starts : StartsVisible s) (ends : EndsVisible s) :
    trim s = s := by
  have whole : trimEnd s = s := by
    obtain ⟨w, blank, same⟩ := exists_trimEnd_append s
    rcases List.eq_nil_or_concat w with rfl | ⟨u, c, rfl⟩
    · rw [List.append_nil] at same
      exact same.symm
    · have last : isBlank c = false := ends c (by rw [same]; simp)
      rw [blank c (by simp)] at last
      cases last
  rw [trim, whole]
  cases s with
  | nil => rfl
  | cons c s => simp [trimStart, starts c rfl]

theorem collapse_trimEnd (s : List Char) : collapse (trimEnd s) = collapse s := by
  obtain ⟨w, all, same⟩ := exists_trimEnd_append s
  cases w with
  | nil => rw [← List.append_nil (trimEnd s), ← same]
  | cons b w =>
    obtain ⟨blank, rest⟩ := List.forall_mem_cons.mp all
    have nothing : collapse w = [] := collapse_eq_nil_iff.mpr rest
    by_cases gone : trimEnd s = []
    · rw [gone, List.nil_append] at same
      rw [gone, same, collapse_cons_blank w blank, nothing]
      rfl
    · have named := collapse_ne_nil (endsVisible_trimEnd s) gone
      have whole := collapse_append_blank named w blank
      rw [← same, nothing] at whole
      simpa [behindSpace] using whole.symm

theorem collapse_trim (s : List Char) : collapse (trim s) = collapse s :=
  (collapse_trimStart (trimEnd s)).trans (collapse_trimEnd s)

theorem mem_behindSpace {s : List Char} (visible : isBlank c = false) :
    c ∈ behindSpace s ↔ c ∈ s := by
  have other : c ≠ ' ' := by
    rintro rfl
    cases visible
  unfold behindSpace
  split
  · rename_i none
    rw [none]
  · simp [other]

theorem mem_collapse {s : List Char} (visible : isBlank c = false) :
    c ∈ collapse s ↔ c ∈ s := by
  induction s with
  | nil => exact Iff.rfl
  | cons d s ih =>
    by_cases blank : isBlank d = true
    · have other : c ≠ d := by
        rintro rfl
        rw [visible] at blank
        cases blank
      rw [collapse_cons_blank s blank, ih]
      simp [other]
    · have plain : isBlank d = false := by simpa using blank
      rcases startsVisible_or s with near | ⟨b, u, rfl, gap⟩
      · rw [collapse_cons_visible plain near, List.mem_cons, List.mem_cons, ih]
      · rw [collapse_cons_blank u gap] at ih
        rw [collapse_visible_blank u plain gap, List.mem_cons, List.mem_cons,
          mem_behindSpace visible, ih]

end Collapse

section Substitute

variable {mark : Char} {by' : List Char}

theorem substitute_cons (c : Char) (s : List Char) :
    substitute mark by' (c :: s) = (if c = mark then by' else [c]) ++ substitute mark by' s := rfl

theorem substitute_cons_blank (visible : isBlank mark = false) {b : Char}
    (blank : isBlank b = true) (s : List Char) :
    substitute mark by' (b :: s) = b :: substitute mark by' s := by
  have other : b ≠ mark := by
    rintro rfl
    rw [visible] at blank
    cases blank
  simp [substitute_cons, other]

theorem substitute_ne_nil (some : by' ≠ []) {s : List Char} (h : s ≠ []) :
    substitute mark by' s ≠ [] := by
  obtain ⟨c, t, rfl⟩ := List.exists_cons_of_ne_nil h
  rw [substitute_cons]
  split <;> simp [some]

theorem startsVisible_substitute (some : by' ≠ []) (starts : StartsVisible by') {s : List Char}
    (h : StartsVisible s) : StartsVisible (substitute mark by' s) := by
  cases s with
  | nil => exact h
  | cons c s =>
    obtain ⟨d, t, rfl⟩ := List.exists_cons_of_ne_nil some
    rw [substitute_cons]
    intro e he
    split at he
    · exact starts e he
    · exact h e he

theorem endsVisible_substitute (some : by' ≠ []) (ends : EndsVisible by') {s : List Char}
    (h : EndsVisible s) : EndsVisible (substitute mark by' s) := by
  rcases List.eq_nil_or_concat s with rfl | ⟨t, c, rfl⟩
  · exact h
  · have last : substitute mark by' (t.concat c) =
        substitute mark by' t ++ if c = mark then by' else [c] := by
      simp [substitute]
    intro e he
    rw [last] at he
    split at he
    · rw [List.getLast?_append_of_ne_nil _ some] at he
      exact ends e he
    · rw [List.getLast?_append_of_ne_nil _ (List.cons_ne_nil c [])] at he
      exact h e (by simpa using he)

theorem substitute_behindSpace (visible : isBlank mark = false) (some : by' ≠ []) (s : List Char) :
    substitute mark by' (behindSpace s) = behindSpace (substitute mark by' s) := by
  by_cases none : s = []
  · subst none
    rfl
  · have space : isBlank ' ' = true := rfl
    rw [behindSpace, if_neg none, substitute_cons_blank visible space, behindSpace,
      if_neg (substitute_ne_nil some none)]

/-- Blanks may be collapsed before or after a visible character gives way to a text that
is visible at both ends. -/
theorem collapse_substitute (visible : isBlank mark = false) (some : by' ≠ [])
    (starts : StartsVisible by') (ends : EndsVisible by') (s : List Char) :
    collapse (substitute mark by' s) = substitute mark (collapse by') (collapse s) := by
  induction s with
  | nil => rfl
  | cons c s ih =>
    by_cases blank : isBlank c = true
    · rw [substitute_cons_blank visible blank, collapse_cons_blank _ blank,
        collapse_cons_blank _ blank, ih]
    · have plain : isBlank c = false := by simpa using blank
      have here : EndsVisible (if c = mark then by' else [c]) ∧
          (if c = mark then by' else [c]) ≠ [] ∧
          collapse (if c = mark then by' else [c]) = if c = mark then collapse by' else [c] := by
        split
        · exact ⟨ends, some, rfl⟩
        · refine ⟨fun d hd => ?_, List.cons_ne_nil _ _, ?_⟩
          · cases hd
            exact plain
          · exact collapse_cons_visible plain fun d hd => by cases hd
      obtain ⟨imageEnds, imageSome, image⟩ := here
      rw [substitute_cons]
      rcases startsVisible_or s with near | ⟨b, u, rfl, gap⟩
      · rw [collapse_append imageEnds (startsVisible_substitute some starts near), ih,
          collapse_cons_visible plain near, substitute_cons, image]
      · have named : collapse by' ≠ [] := collapse_ne_nil ends some
        rw [substitute_cons_blank visible gap, collapse_cons_blank _ gap,
          collapse_cons_blank _ gap] at ih
        rw [substitute_cons_blank visible gap,
          collapse_append_blank (collapse_ne_nil imageEnds imageSome) _ gap, ih,
          collapse_visible_blank _ plain gap, substitute_cons, image,
          substitute_behindSpace visible named]

end Substitute

section SingleSpaced

/-- No blanks but spaces, and never two of them side by side. -/
structure SingleSpaced (s : List Char) : Prop where
  spaces : ∀ c ∈ s, isBlank c = true → c = ' '
  apart : s.IsChain fun a b => isBlank a = false ∨ isBlank b = false

theorem singleSpaced_cons_visible {c : Char} {s : List Char} (visible : isBlank c = false) :
    SingleSpaced (c :: s) ↔ SingleSpaced s := by
  constructor
  · rintro ⟨spaces, apart⟩
    exact ⟨fun d hd => spaces d (List.mem_cons_of_mem c hd), apart.tail⟩
  · rintro ⟨spaces, apart⟩
    refine ⟨List.forall_mem_cons.mpr ⟨fun blank => ?_, spaces⟩,
      List.isChain_cons.mpr ⟨fun d _ => .inl visible, apart⟩⟩
    rw [visible] at blank
    cases blank

theorem singleSpaced_snoc_visible {c : Char} {s : List Char} (visible : isBlank c = false) :
    SingleSpaced (s ++ [c]) ↔ SingleSpaced s := by
  constructor
  · rintro ⟨spaces, apart⟩
    exact ⟨fun d hd => spaces d (List.mem_append_left [c] hd), (List.isChain_append.mp apart).1⟩
  · rintro ⟨spaces, apart⟩
    refine ⟨List.forall_mem_append.mpr ⟨spaces, List.forall_mem_singleton.mpr fun blank => ?_⟩,
      List.isChain_append.mpr ⟨apart, .singleton c, ?_⟩⟩
    · rw [visible] at blank
      cases blank
    · rintro d - e ⟨⟩
      exact .inr visible

theorem singleSpaced_cons_blank {b : Char} {s : List Char} (blank : isBlank b = true) :
    SingleSpaced (b :: s) ↔ b = ' ' ∧ StartsVisible s ∧ SingleSpaced s := by
  constructor
  · rintro ⟨spaces, apart⟩
    obtain ⟨first, later⟩ := List.isChain_cons.mp apart
    refine ⟨spaces b List.mem_cons_self blank, fun c hc => ?_,
      fun d hd => spaces d (List.mem_cons_of_mem b hd), later⟩
    exact (first c hc).resolve_left (by simp [blank])
  · rintro ⟨space, starts, spaces, apart⟩
    exact ⟨List.forall_mem_cons.mpr ⟨fun _ => space, spaces⟩,
      List.isChain_cons.mpr ⟨fun d hd => .inr (starts d hd), apart⟩⟩

theorem startsVisible_collapse (s : List Char) : StartsVisible (collapse s) := by
  rw [← trim_collapse]
  exact startsVisible_trim _

/-- A text that is visible at both ends is collapsed just if it is single-spaced. -/
theorem collapse_eq_self_iff {s : List Char} (starts : StartsVisible s) (ends : EndsVisible s) :
    collapse s = s ↔ SingleSpaced s := by
  match s with
  | [] => exact iff_of_true rfl ⟨by simp, .nil⟩
  | c :: t =>
    have visible : isBlank c = false := starts c rfl
    rw [singleSpaced_cons_visible visible]
    rcases startsVisible_or t with near | ⟨b, u, rfl, blank⟩
    · rw [collapse_cons_visible visible near, List.cons_inj_right,
        collapse_eq_self_iff near (ends.of_suffix (List.suffix_cons c t))]
    · have tail : EndsVisible u := ends.of_suffix ⟨[c, b], rfl⟩
      have more : u ≠ [] := by
        rintro rfl
        have last : isBlank b = false := ends b rfl
        rw [blank] at last
        cases last
      rw [collapse_visible_blank u visible blank, List.cons_inj_right, behindSpace,
        if_neg (collapse_ne_nil tail more), singleSpaced_cons_blank blank, List.cons.injEq, eq_comm]
      refine and_congr_right fun _ => ⟨fun same => ?_, fun h => ?_⟩
      · have near : StartsVisible u := same ▸ startsVisible_collapse u
        exact ⟨near, (collapse_eq_self_iff near tail).mp same⟩
      · exact (collapse_eq_self_iff h.1 tail).mpr h.2
termination_by s.length

end SingleSpaced

end AuthoredStyle.Text
