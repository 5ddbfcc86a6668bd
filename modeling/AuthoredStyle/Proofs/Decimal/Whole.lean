import AuthoredStyle.Decimal.Numeral

/-!
# Whole numbers, read and written

A whole number is read with leading noughts and, where it is a word, with a plus
sign in front. Written, it has neither. So what was read is written as the text
less its sign and its leading noughts, and what is written reads back as itself.
-/

namespace AuthoredStyle.Decimal

/-- Digits without leading noughts; nought itself keeps one. -/
def plain (s : List Char) : List Char :=
  match s.dropWhile (· = '0') with
  | [] => ['0']
  | t => t

def withoutPlus : List Char → List Char
  | '+' :: s => s
  | s => s

theorem digitsValue_eq (s : List Char) : digitsValue s = Nat.ofDigitChars 10 s 0 := by
  rw [digitsValue, Nat.ofDigitChars_eq_foldl]

theorem digitChar_of_isDigit {c : Char} (h : c.isDigit = true) :
    c.toNat - '0'.toNat < 10 ∧ Nat.digitChar (c.toNat - '0'.toNat) = c := by
  have nought : '0'.toNat = 48 := rfl
  have bounds : 48 ≤ c.toNat ∧ c.toNat ≤ 57 := by
    simp only [Char.isDigit, Bool.and_eq_true, decide_eq_true_eq] at h
    exact h
  have small : c.toNat - '0'.toNat < 10 := by omega
  refine ⟨small, Char.toNat_inj.mp ?_⟩
  rw [Nat.toNat_digitChar_of_lt_ten small]
  omega

/-- Reading on behind a positive number writes on behind its digits. -/
theorem toDigits_ofDigitChars {s : List Char} {n : Nat} (digits : ∀ c ∈ s, c.isDigit = true)
    (pos : 0 < n) : Nat.toDigits 10 (Nat.ofDigitChars 10 s n) = Nat.toDigits 10 n ++ s := by
  induction s generalizing n with
  | nil => simp
  | cons c s ih =>
    obtain ⟨small, own⟩ := digitChar_of_isDigit (digits c List.mem_cons_self)
    rw [Nat.ofDigitChars_cons, ih (fun d hd => digits d (List.mem_cons_of_mem c hd)) (by omega),
      ← Nat.toDigits_append_toDigits (by decide) pos small, Nat.toDigits_of_lt_base small, own]
    simp

theorem toDigits_digitsValue {s : List Char} (some : s ≠ [])
    (digits : ∀ c ∈ s, c.isDigit = true) : Nat.toDigits 10 (digitsValue s) = plain s := by
  rw [digitsValue_eq]
  induction s with
  | nil => exact absurd rfl some
  | cons c s ih =>
    have rest : ∀ d ∈ s, d.isDigit = true := fun d hd => digits d (List.mem_cons_of_mem c hd)
    by_cases nought : c = '0'
    · subst nought
      rcases s with _ | ⟨d, s⟩
      · rfl
      · have same : plain ('0' :: d :: s) = plain (d :: s) := by simp [plain]
        rw [same, ← ih (by simp) rest]
        rfl
    · obtain ⟨small, own⟩ := digitChar_of_isDigit (digits c List.mem_cons_self)
      have pos : 0 < c.toNat - '0'.toNat := by
        rcases Nat.eq_zero_or_pos (c.toNat - '0'.toNat) with zero | pos
        · rw [zero] at own
          exact absurd own.symm nought
        · exact pos
      have kept : plain (c :: s) = c :: s := by simp [plain, nought]
      rw [Nat.ofDigitChars_cons, Nat.mul_zero, Nat.zero_add, toDigits_ofDigitChars rest pos,
        Nat.toDigits_of_lt_base small, own, kept]
      rfl

theorem toDigits_of_whole? {s : List Char} {n : Nat} (h : whole? s = some n) :
    Nat.toDigits 10 n = plain s := by
  rw [whole?] at h
  split at h
  · cases h
  · rename_i readable
    simp only [Bool.or_eq_true, List.isEmpty_iff, Bool.not_eq_true', not_or, Bool.not_eq_false,
      List.all_eq_true] at readable
    cases h
    exact toDigits_digitsValue readable.1 readable.2

theorem whole?_toDigits (n : Nat) : whole? (Nat.toDigits 10 n) = some n := by
  have digits : (Nat.toDigits 10 n).all Char.isDigit = true :=
    List.all_eq_true.mpr fun c hc => Nat.isDigit_of_mem_toDigits (by decide) (by decide) hc
  have some : (Nat.toDigits 10 n).isEmpty = false := by simp
  rw [whole?, digits, some, digitsValue_eq, Nat.ofDigitChars_ten_toDigits]
  rfl

theorem word?_eq (s : List Char) : word? s = (whole? (withoutPlus s)).filter (· < Nat.pow 2 64) :=
  rfl

theorem toDigits_of_word? {s : List Char} {n : Nat} (h : word? s = some n) :
    Nat.toDigits 10 n = plain (withoutPlus s) := by
  rw [word?_eq, Option.filter_eq_some_iff] at h
  exact toDigits_of_whole? h.1

theorem withoutPlus_toDigits (n : Nat) : withoutPlus (Nat.toDigits 10 n) = Nat.toDigits 10 n := by
  unfold withoutPlus
  split
  · rename_i s shape
    have plus : '+'.isDigit = true :=
      Nat.isDigit_of_mem_toDigits (b := 10) (n := n) (by decide) (by decide) (by simp [shape])
    exact absurd plus (by decide)
  · rfl

theorem word?_toDigits {n : Nat} (h : n < Nat.pow 2 64) : word? (Nat.toDigits 10 n) = some n := by
  rw [word?_eq, withoutPlus_toDigits, whole?_toDigits]
  simpa using h

end AuthoredStyle.Decimal
