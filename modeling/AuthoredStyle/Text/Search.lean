import AuthoredStyle.Text.Blank

/-!
# Finding and cutting text

A cut returns what stands before and after an occurrence, so a caller never
handles positions: the text is always the two parts around the pattern.
-/

namespace AuthoredStyle.Text

/-- ASCII letters in lower case; every other character stays. -/
def lower (s : List Char) : List Char := s.map Char.toLower

/-- The text less a given beginning. -/
def dropLead? : (lead s : List Char) → Option (List Char)
  | [], s => some s
  | _ :: _, [] => none
  | a :: lead, c :: s => if a = c then dropLead? lead s else none

/-- The text less a given ending. -/
def dropEnding? (ending s : List Char) : Option (List Char) :=
  (dropLead? ending.reverse s.reverse).map List.reverse

def hasLead (lead s : List Char) : Bool := lead.isPrefixOf s

/-- The parts around the first occurrence of a pattern. -/
def cut? (pattern : List Char) : List Char → Option (List Char × List Char)
  | [] => if pattern.isEmpty then some ([], []) else none
  | c :: s =>
    match dropLead? pattern (c :: s) with
    | some rest => some ([], rest)
    | none => (cut? pattern s).map fun (before, after) => (c :: before, after)

def holds (pattern s : List Char) : Bool := (cut? pattern s).isSome

/-- The parts around the last occurrence of a character. -/
def cutLast? (mark : Char) : List Char → Option (List Char × List Char)
  | [] => none
  | c :: s =>
    match cutLast? mark s with
    | some (before, after) => some (c :: before, after)
    | none => if c = mark then some ([], s) else none

/-- Every occurrence of one character gives way to a text. -/
def substitute (mark : Char) (by' s : List Char) : List Char :=
  s.flatMap fun c => if c = mark then by' else [c]

theorem lower_lower (s : List Char) : lower (lower s) = lower s := by
  have once (c : Char) : c.toLower.toLower = c.toLower := by
    delta Char.toLower
    grind
  simp [lower, once]

/-- A character that is no ASCII letter is the lower case of itself only. -/
theorem toLower_eq_iff {c d : Char} (other : d.isAlpha = false) : c.toLower = d ↔ c = d := by
  by_cases upper : c.val ≥ 'A'.val ∧ c.val ≤ 'Z'.val
  · have moved : c.toLower = _ := dif_pos upper
    have low := UInt32.le_iff_toNat_le.mp upper.1
    have high := UInt32.le_iff_toNat_le.mp upper.2
    change (decide (d.val ≥ 'A'.val ∧ d.val ≤ 'Z'.val) ||
      (decide (d.val ≥ 'a'.val) && decide (d.val ≤ 'z'.val))) = false at other
    simp only [Bool.or_eq_false_iff, Bool.and_eq_false_iff, decide_eq_false_iff_not, ge_iff_le,
      UInt32.le_iff_toNat_le] at other
    refine iff_of_false (fun same => ?_) (fun same => ?_)
    · have value := congrArg UInt32.toNat (congrArg Char.val (moved.symm.trans same))
      simp at low high value other
      omega
    · subst same
      simp at low high other
      omega
  · have stays : c.toLower = c := dif_neg upper
    rw [stays]

theorem mem_lower_iff {d : Char} (other : d.isAlpha = false) {s : List Char} :
    d ∈ lower s ↔ d ∈ s := by
  simp [lower, toLower_eq_iff other]

theorem eq_of_dropLead? {lead s rest : List Char} (h : dropLead? lead s = some rest) :
    s = lead ++ rest := by
  fun_induction dropLead? lead s with
  | case1 => simpa using h
  | case2 => simp at h
  | case3 lead c s ih => rw [List.cons_append, ← ih h]
  | case4 => simp at h

theorem eq_of_cut? {p s before after : List Char} (h : cut? p s = some (before, after)) :
    s = before ++ p ++ after := by
  induction s generalizing before with
  | nil =>
    rw [cut?] at h
    split at h
    · rename_i empty
      rw [List.isEmpty_iff] at empty
      simp_all
    · simp at h
  | cons c s ih =>
    rw [cut?] at h
    split at h
    · rename_i rest found
      simp only [Option.some.injEq, Prod.mk.injEq] at h
      obtain ⟨rfl, rfl⟩ := h
      simpa using eq_of_dropLead? found
    · simp only [Option.map_eq_some_iff, Prod.exists, Prod.mk.injEq] at h
      obtain ⟨b, a, found, rfl, rfl⟩ := h
      simp [ih found]

theorem eq_of_cutLast? {mark : Char} {s before after : List Char}
    (h : cutLast? mark s = some (before, after)) :
    s = before ++ mark :: after ∧ mark ∉ after := by
  induction s generalizing before with
  | nil => simp [cutLast?] at h
  | cons c s ih =>
    rw [cutLast?] at h
    split at h
    · rename_i b a found
      simp only [Option.some.injEq, Prod.mk.injEq] at h
      obtain ⟨rfl, rfl⟩ := h
      have := ih found
      exact ⟨by simp [this.1], this.2⟩
    · rename_i absent
      split at h
      · rename_i here
        simp only [Option.some.injEq, Prod.mk.injEq] at h
        obtain ⟨rfl, rfl⟩ := h
        refine ⟨by simp [here], ?_⟩
        clear ih
        induction s with
        | nil => simp
        | cons d s ih =>
          rw [cutLast?] at absent
          split at absent
          · simp at absent
          · rename_i later
            split at absent
            · simp at absent
            · rename_i other
              simp only [List.mem_cons, not_or]
              exact ⟨fun e => other e.symm, ih later⟩
      · simp at h

end AuthoredStyle.Text
