/-!
# Escaped characters

A backslash takes the next character with it, whatever that is. A mark is escaped if what is
in front of it ends in such a backslash, and a text may have marks of a kind all of which are
escaped.
-/

namespace AuthoredStyle.Text

/-- The text ends in a backslash that takes the next character with it. -/
def pending : List Char → Bool
  | [] => false
  | ['\\'] => true
  | '\\' :: _ :: s => pending s
  | _ :: s => pending s

def AllEscaped (mark : Char) (s : List Char) : Prop :=
  ∀ a b, s = a ++ mark :: b → pending a = true

section Escape

variable {c mark : Char} {s : List Char}

/-- What starts neither with a lone backslash nor with an escape starts with no backslash. -/
theorem ne_backslash (last : c = '\\' → s = [] → False)
    (other : ∀ d t, c = '\\' → s = d :: t → False) : c ≠ '\\' := by
  intro slash
  cases s with
  | nil => exact last slash rfl
  | cons d t => exact other d t slash rfl

theorem pending_cons (slash : c ≠ '\\') (s : List Char) : pending (c :: s) = pending s := by
  rw [pending]
  all_goals simp_all

/-- Behind a character that is no backslash, all is as at the start. -/
theorem pending_append_cons (slash : c ≠ '\\') (a s : List Char) :
    pending (a ++ c :: s) = pending s := by
  fun_induction pending a with
  | case1 => exact pending_cons slash s
  | case2 => rfl
  | case3 d a ih => exact ih
  | case4 d a last other ih => rw [List.cons_append, pending_cons (ne_backslash last other), ih]

theorem pending_of_not_mem (slash : '\\' ∉ s) : pending s = false := by
  induction s with
  | nil => rfl
  | cons c s ih =>
    obtain ⟨other, later⟩ := List.ne_and_not_mem_of_not_mem_cons slash
    rw [pending_cons other.symm, ih later]

theorem allEscaped_nil (mark : Char) : AllEscaped mark [] := by
  intro a b split
  simp at split

theorem allEscaped_cons_iff (slash : c ≠ '\\') :
    AllEscaped mark (c :: s) ↔ c ≠ mark ∧ AllEscaped mark s := by
  constructor
  · intro h
    refine ⟨?_, fun a b split => ?_⟩
    · rintro rfl
      exact absurd (h [] s rfl) (by decide)
    · rw [← pending_cons slash]
      exact h (c :: a) b (by rw [split]; rfl)
  · rintro ⟨other, later⟩ a b split
    cases a with
    | nil => exact absurd (List.cons_eq_cons.mp split).1 other
    | cons d a =>
      obtain ⟨rfl, behind⟩ := List.cons_eq_cons.mp split
      rw [pending_cons slash]
      exact later a b behind

theorem allEscaped_escaped_iff (slash : mark ≠ '\\') (c : Char) :
    AllEscaped mark ('\\' :: c :: s) ↔ AllEscaped mark s := by
  constructor
  · intro h a b split
    exact h ('\\' :: c :: a) b (by rw [split]; rfl)
  · intro h a b split
    match a, split with
    | [], split => exact absurd (List.cons_eq_cons.mp split).1.symm slash
    | [d], split =>
      obtain ⟨rfl, -⟩ := List.cons_eq_cons.mp split
      rfl
    | d :: e :: a, split =>
      obtain ⟨rfl, behind⟩ := List.cons_eq_cons.mp split
      exact h a b (List.cons_eq_cons.mp behind).2

theorem AllEscaped.of_append_cons {a : List Char} (slash : c ≠ '\\')
    (h : AllEscaped mark (a ++ c :: s)) : AllEscaped mark s := by
  intro b b' split
  rw [← pending_append_cons slash a]
  exact h (a ++ c :: b) b' (by rw [split]; simp)

end Escape

end AuthoredStyle.Text
