import AuthoredStyle.Proofs.Sheet.Passing
import AuthoredStyle.Proofs.Sheet.Uncommented

/-!
# Comments and quotes

The scanner passes over quoted strings, but comments are taken out before it runs, and quotes
are not looked at there. What would be left if they were looked at is said here, with a string
as long as it is for the scanner. The two agree on a text and all its beginnings as long as no
`/*` stands in a string.
-/

namespace AuthoredStyle.Sheet

/-! ## Comments outside quotes -/

/-- The text without the comments that open outside quotes, from a reading or, with `none`, from
inside a comment. -/
def outsideComments : Option Reading → List Char → List Char
  | _, [] => []
  | none, [_] => []
  | some _, [c] => [c]
  | none, c :: d :: s =>
    if c = '*' ∧ d = '/' then outsideComments (some .bare) s else outsideComments none (d :: s)
  | some r, c :: d :: s =>
    if r = .bare ∧ c = '/' ∧ d = '*' then outsideComments none s
    else c :: outsideComments (some (r.next c)) (d :: s)

/-- The reading behind a text, `none` where it ends in a comment. -/
def spotAfter : Option Reading → List Char → Option Reading
  | spot, [] => spot
  | none, [_] => none
  | some r, [c] => some (r.next c)
  | none, c :: d :: s =>
    if c = '*' ∧ d = '/' then spotAfter (some .bare) s else spotAfter none (d :: s)
  | some r, c :: d :: s =>
    if r = .bare ∧ c = '/' ∧ d = '*' then spotAfter none s else spotAfter (some (r.next c)) (d :: s)

/-- Somewhere `/*` stands in a string. -/
def OpensQuoted (spot : Option Reading) (text : List Char) : Prop :=
  ∃ a b r, text = a ++ '/' :: '*' :: b ∧ spotAfter spot a = some r ∧ r ≠ .bare

section Quoted

variable {spot : Option Reading} {text : List Char}

theorem OpensQuoted.of_append {a b : List Char} (h : OpensQuoted spot a) :
    OpensQuoted spot (a ++ b) := by
  obtain ⟨front, back, r, rfl, reading, quoted⟩ := h
  exact ⟨front, back ++ b, r, by simp, reading, quoted⟩

section Cons

variable {c d : Char} {a : List Char}

theorem spotAfter_cons_inside (stays : ¬ (c = '*' ∧ d = '/')) (next : ∀ e ∈ a.head?, e = d) :
    spotAfter none (c :: a) = spotAfter none a := by
  cases a with
  | nil => rfl
  | cons e a =>
    obtain rfl := next e rfl
    rw [spotAfter, if_neg stays]

theorem spotAfter_cons_outside {r : Reading} (stays : ¬ (r = .bare ∧ c = '/' ∧ d = '*'))
    (next : ∀ e ∈ a.head?, e = d) :
    spotAfter (some r) (c :: a) = spotAfter (some (r.next c)) a := by
  cases a with
  | nil => rfl
  | cons e a =>
    obtain rfl := next e rfl
    rw [spotAfter, if_neg stays]

end Cons

/-- What a text starts with is what its first part starts with. -/
theorem eq_of_mem_head? {a b s : List Char} {c d : Char} (cut : d :: s = a ++ b)
    (hc : c ∈ a.head?) : c = d := by
  cases a with
  | nil => cases hc
  | cons e a =>
    obtain rfl : e = c := by simpa using hc
    exact (List.cons.inj cut).1.symm

/-- Where no string has an opening, all comments open outside strings. -/
theorem uncomment_eq_outsideComments (clear : ¬ OpensQuoted spot text) :
    uncomment spot.isNone text = outsideComments spot text := by
  fun_induction outsideComments spot text with
  | case1 spot => rw [uncomment]
  | case2 c => rfl
  | case3 r c => rfl
  | case4 c d s closes ih =>
    rw [Option.isNone_none, uncomment, if_pos rfl, if_pos closes]
    refine ih ?_
    rintro ⟨a, b, r, cut, reading, quoted⟩
    refine clear ⟨c :: d :: a, b, r, by rw [cut]; rfl, ?_, quoted⟩
    rw [spotAfter, if_pos closes, reading]
  | case5 c d s stays ih =>
    rw [Option.isNone_none, uncomment, if_pos rfl, if_neg stays]
    refine ih ?_
    rintro ⟨a, b, r, cut, reading, quoted⟩
    refine clear ⟨c :: a, b, r, by rw [cut]; rfl, ?_, quoted⟩
    rw [spotAfter_cons_inside stays fun e => eq_of_mem_head? cut, reading]
  | case6 r c d s opens ih =>
    rw [Option.isNone_some, uncomment, if_neg Bool.false_ne_true, if_pos opens.2]
    refine ih ?_
    rintro ⟨a, b, q, cut, reading, quoted⟩
    refine clear ⟨c :: d :: a, b, q, by rw [cut]; rfl, ?_, quoted⟩
    rw [spotAfter, if_pos opens, reading]
  | case7 r c d s stays ih =>
    have passes : ¬ (c = '/' ∧ d = '*') := by
      rintro ⟨rfl, rfl⟩
      exact clear ⟨[], s, r, rfl, rfl, fun bare => stays ⟨bare, rfl, rfl⟩⟩
    rw [Option.isNone_some, uncomment, if_neg Bool.false_ne_true, if_neg passes, ← ih ?_]
    · rfl
    rintro ⟨a, b, q, cut, reading, quoted⟩
    refine clear ⟨c :: a, b, q, by rw [cut]; rfl, ?_, quoted⟩
    rw [spotAfter_cons_outside stays fun e => eq_of_mem_head? cut, reading]

/-- In a string `/*` is kept. -/
theorem outsideComments_quoted {r : Reading} (reading : spotAfter spot text = some r)
    (quoted : r ≠ .bare) :
    outsideComments spot (text ++ ['/', '*']) = outsideComments spot text ++ ['/', '*'] := by
  fun_induction spotAfter spot text with
  | case1 spot =>
    rw [reading]
    simp [outsideComments, quoted]
  | case2 c => cases reading
  | case3 q c =>
    obtain rfl := Option.some.inj reading
    simp [outsideComments, quoted]
  | case4 c d s closes ih =>
    rw [List.cons_append, List.cons_append, outsideComments, if_pos closes, ih reading]
    rw [outsideComments, if_pos closes]
  | case5 c d s stays ih =>
    have whole := ih reading
    rw [List.cons_append] at whole
    rw [List.cons_append, List.cons_append, outsideComments, if_neg stays, whole,
      outsideComments, if_neg stays]
  | case6 q c d s opens ih =>
    rw [List.cons_append, List.cons_append, outsideComments, if_pos opens, ih reading,
      outsideComments, if_pos opens]
  | case7 q c d s stays ih =>
    have whole := ih reading
    rw [List.cons_append] at whole
    rw [List.cons_append, List.cons_append, outsideComments, if_neg stays, whole,
      outsideComments, if_neg stays, List.cons_append]

/-- Behind any text the reader takes `/*` for an opening or for a part of its comment. -/
theorem length_uncomment_opening (inside : Bool) (text : List Char) :
    (uncomment inside (text ++ ['/', '*'])).length < (uncomment inside text).length + 2 := by
  fun_induction uncomment inside text with
  | case1 inside => cases inside <;> decide
  | case2 c => by_cases star : c = '*' <;> simp [uncomment, star]
  | case3 inside c outside =>
    have here : inside = false := by simpa using outside
    simp [uncomment, here]
  | case4 c d s closes ih => simpa [uncomment, closes] using ih
  | case5 c d s stays ih => simpa [uncomment, stays] using ih
  | case6 inside c d s outside opens ih => simpa [uncomment, outside, opens] using ih
  | case7 inside c d s outside stays ih => simpa [uncomment, outside, stays] using ih

/-- Nothing is put in. -/
theorem length_uncomment_le (inside : Bool) (text : List Char) :
    (uncomment inside text).length ≤ text.length := by
  fun_induction uncomment inside text <;> simp_all <;> omega

end Quoted

theorem dropComments_eq_self_iff (text : List Char) :
    dropComments text = text ↔ OpensNoComment text := by
  refine ⟨fun kept => ?_, dropComments_eq_self⟩
  rw [dropComments] at kept
  rw [opensNoComment_iff]
  induction text with
  | nil => exact List.isChain_nil
  | cons c text ih =>
    cases text with
    | nil => exact List.isChain_singleton c
    | cons d s =>
      rw [uncomment, if_neg Bool.false_ne_true] at kept
      by_cases opens : c = '/' ∧ d = '*'
      · rw [if_pos opens] at kept
        have short := length_uncomment_le true s
        rw [kept, List.length_cons, List.length_cons] at short
        omega
      · rw [if_neg opens] at kept
        exact List.isChain_cons_cons.mpr ⟨opens, ih (List.cons.inj kept).2⟩

/-- All beginnings of a text lose just the comments that open outside strings if and only if no
`/*` stands in a string of the text. A text is kept as it is just if no `/*` stands in it. -/
theorem strips_outside_quotes_iff (text : List Char) :
    ((∀ a, a <+: text → dropComments a = outsideComments (some .bare) a) ↔
        ¬ OpensQuoted (some .bare) text) ∧
      (dropComments text = text ↔ OpensNoComment text) := by
  refine ⟨⟨fun agree => ?_, fun clear a starts => ?_⟩, dropComments_eq_self_iff text⟩
  · rintro ⟨a, b, r, rfl, reading, quoted⟩
    have here := agree a (List.prefix_append ..)
    have opened := agree (a ++ ['/', '*']) ⟨b, by simp⟩
    have short := length_uncomment_opening false a
    rw [dropComments] at here opened
    rw [opened, outsideComments_quoted reading quoted, here, List.length_append] at short
    exact absurd short (Nat.lt_irrefl _)
  · obtain ⟨b, rfl⟩ := starts
    exact uncomment_eq_outsideComments fun opens => clear opens.of_append

/-- A `content` of `/*` swallows the rest of the sheet. -/
theorem quoted_opening_swallows :
    ¬ ∀ text, dropComments text = outsideComments (some .bare) text := by
  intro always
  have swallows := always ".a::before \x7b content: \"/*\" \x7d .b \x7b color: red \x7d".toList
  exact absurd swallows (by decide +kernel)

end AuthoredStyle.Sheet
