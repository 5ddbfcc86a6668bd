import AuthoredStyle.Proofs.Text.Trim

/-!
# Words of a text

Cutting a text at separators gives all of its words and nothing else: a word holds no
separator, and on either side of it stands one or an end of the text.
-/

namespace AuthoredStyle.Text

/-- One of the words of a text, where `white` tells what stands between words. -/
structure IsWordOf (white : Char → Bool) (w s : List Char) : Prop where
  ne_nil : w ≠ []
  solid : ∀ c ∈ w, white c = false
  bounded : ∃ before after, s = before ++ w ++ after ∧
    (∀ c ∈ before.getLast?, white c = true) ∧ ∀ c ∈ after.head?, white c = true

section Separators

variable {white : Char → Bool}

theorem free_of_mem_fields {s f : List Char} (hf : f ∈ fields white s) :
    ∀ c ∈ f, white c = false := by
  induction s generalizing f with
  | nil =>
    rw [List.mem_singleton.mp hf]
    exact fun c hc => absurd hc List.not_mem_nil
  | cons c s ih =>
    obtain ⟨g, gs, cut⟩ := List.exists_cons_of_ne_nil (fields_ne_nil white s)
    rw [fields] at hf
    cases separates : white c with
    | true =>
      rw [separates, if_pos rfl] at hf
      rcases List.mem_cons.mp hf with rfl | hf
      · exact fun d hd => absurd hd List.not_mem_nil
      · exact ih hf
    | false =>
      rw [separates, if_neg Bool.false_ne_true, cut] at hf
      rw [cut] at ih
      rcases List.mem_cons.mp hf with rfl | hf
      · exact List.forall_mem_cons.mpr ⟨separates, ih List.mem_cons_self⟩
      · exact ih (List.mem_cons_of_mem g hf)

/-- The first field starts the text, every other one has a separator in front, and behind each
of them stands a separator or nothing. -/
theorem exists_fields_bounded (white : Char → Bool) (s : List Char) :
    ∃ f fs, fields white s = f :: fs ∧
      (∃ after, s = f ++ after ∧ ∀ d ∈ after.head?, white d = true) ∧
        ∀ g ∈ fs, ∃ before c after, s = before ++ c :: (g ++ after) ∧ white c = true ∧
          ∀ d ∈ after.head?, white d = true := by
  induction s with
  | nil => exact ⟨[], [], rfl, ⟨[], rfl, by simp⟩, by simp⟩
  | cons c s ih =>
    obtain ⟨f, fs, cut, ⟨rest, first, ends⟩, later⟩ := ih
    have onward : ∀ g ∈ fs, ∃ before d after, c :: s = before ++ d :: (g ++ after) ∧
        white d = true ∧ ∀ e ∈ after.head?, white e = true := by
      intro g hg
      obtain ⟨before, d, after, split, separates, stops⟩ := later g hg
      exact ⟨c :: before, d, after, by rw [split]; rfl, separates, stops⟩
    cases separates : white c with
    | true =>
      refine ⟨[], f :: fs, by rw [fields, separates, cut]; rfl, ⟨c :: s, rfl, ?_⟩, ?_⟩
      · rintro d ⟨⟩
        exact separates
      · exact List.forall_mem_cons.mpr
          ⟨⟨[], c, rest, by rw [first]; rfl, separates, ends⟩, onward⟩
    | false =>
      exact ⟨c :: f, fs, by rw [fields, separates, cut]; rfl,
        ⟨rest, by rw [first]; rfl, ends⟩, onward⟩

theorem mem_runs_iff {w s : List Char} : w ∈ runs white s ↔ IsWordOf white w s := by
  constructor
  · intro run
    obtain ⟨field, some⟩ := List.mem_filter.mp run
    refine ⟨by simpa using some, free_of_mem_fields field, ?_⟩
    obtain ⟨f, fs, cut, ⟨rest, first, ends⟩, later⟩ := exists_fields_bounded white s
    rw [cut] at field
    rcases List.mem_cons.mp field with rfl | field
    · exact ⟨[], rest, first, by simp, ends⟩
    · obtain ⟨before, c, after, split, separates, stops⟩ := later w field
      exact ⟨before ++ [c], after, by rw [split]; simp, by simpa using separates, stops⟩
  · rintro ⟨some, free, before, after, rfl, starts, stops⟩
    -- the end is cut off first, so that the word is the last run that is left
    have ended : w ∈ runs white (w ++ after) := by
      cases after with
      | nil => rw [List.append_nil, runs_of_none some free]; exact List.mem_singleton_self w
      | cons d after =>
        rw [runs_append_separator w after (stops d rfl), runs_of_none some free]
        exact List.mem_cons_self
    rcases List.eq_nil_or_concat before with rfl | ⟨front, c, rfl⟩
    · exact ended
    · rw [List.concat_eq_append, List.append_assoc, List.append_assoc, List.singleton_append,
        runs_append_separator front _ (starts c (by simp))]
      exact List.mem_append_right _ ended

/-- Separators are told apart on the characters of the text only. -/
theorem runs_congr {other : Char → Bool} {s : List Char} (same : ∀ c ∈ s, white c = other c) :
    runs white s = runs other s := by
  have fields : fields white s = fields other s := by
    induction s with
    | nil => rfl
    | cons c s ih =>
      obtain ⟨here, later⟩ := List.forall_mem_cons.mp same
      rw [fields, fields, here, ih later]
  rw [runs, runs, fields]

end Separators

end AuthoredStyle.Text
