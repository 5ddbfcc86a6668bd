import AuthoredStyle.Proofs.Text.Collapse
import AuthoredStyle.Sheet.Pseudo

/-!
# Stripped selectors

Stripping a selector of its pseudo tokens leaves nothing to strip, whatever text it
was. A colon stays only behind a backslash, and a backslash that protects something
protects it still when blanks are collapsed: of the blanks behind a backslash one is
left, or the backslash ends the selector.
-/

namespace AuthoredStyle.Sheet

open Text (collapse behindSpace)

/-- Without pseudo tokens. -/
def Bare (s : List Char) : Prop := partPseudo s = (s, [])

section Bare

variable {c : Char} {s : List Char}

theorem bare_nil : Bare [] := by
  rw [Bare, partPseudo]

theorem bare_backslash : Bare ['\\'] := by
  rw [Bare, partPseudo]

theorem Bare.escaped (h : Bare s) (c : Char) : Bare ('\\' :: c :: s) := by
  rw [Bare, partPseudo, h]

theorem Bare.cons (h : Bare s) (colon : c ≠ ':') (slash : c ≠ '\\') : Bare (c :: s) := by
  rw [Bare, partPseudo, h]
  · rintro rfl
    exact absurd rfl slash
  · rintro d rest rfl
    exact absurd rfl slash
  · rintro rfl
    exact absurd rfl colon

theorem Bare.behindSpace (h : Bare s) : Bare (behindSpace s) := by
  unfold Text.behindSpace
  split
  · exact bare_nil
  · exact h.cons (by decide) (by decide)

theorem exists_collapse_cons (s : List Char) (visible : Text.isBlank c = false) :
    ∃ rest, (rest = collapse s ∨ rest = Text.behindSpace (collapse s)) ∧
      collapse (c :: s) = c :: rest := by
  rcases Text.startsVisible_or s with starts | ⟨b, t, rfl, blank⟩
  · exact ⟨collapse s, .inl rfl, Text.collapse_cons_visible visible starts⟩
  · refine ⟨_, .inr rfl, ?_⟩
    rw [Text.collapse_visible_blank t visible blank, Text.collapse_cons_blank t blank]

theorem bare_collapse_cons (h : Bare (collapse s)) (colon : c ≠ ':') (slash : c ≠ '\\') :
    Bare (collapse (c :: s)) := by
  by_cases blank : Text.isBlank c = true
  · rwa [Text.collapse_cons_blank s blank]
  · obtain ⟨rest, either, whole⟩ := exists_collapse_cons s (c := c) (by simpa using blank)
    rw [whole]
    rcases either with rfl | rfl
    · exact h.cons colon slash
    · exact h.behindSpace.cons colon slash

theorem bare_collapse_escaped (h : Bare (collapse s)) (c : Char) :
    Bare (collapse ('\\' :: c :: s)) := by
  have slash : Text.isBlank '\\' = false := rfl
  by_cases blank : Text.isBlank c = true
  · -- The protected blank goes when nothing visible follows it.
    rw [Text.collapse_visible_blank s slash blank]
    unfold Text.behindSpace
    split
    · exact bare_backslash
    · exact h.escaped ' '
  · have visible : Text.isBlank c = false := by simpa using blank
    have starts : Text.StartsVisible (c :: s) := by
      intro d hd
      cases hd
      exact visible
    obtain ⟨rest, either, whole⟩ := exists_collapse_cons s visible
    rw [Text.collapse_cons_visible slash starts, whole]
    rcases either with rfl | rfl
    · exact h.escaped c
    · exact h.behindSpace.escaped c

end Bare

theorem bare_collapse_partPseudo (s : List Char) : Bare (collapse (partPseudo s).1) := by
  fun_induction partPseudo s with
  | case1 => exact bare_nil
  | case2 => exact bare_backslash
  | case3 c s base tokens parted ih =>
    rw [parted] at ih
    exact bare_collapse_escaped ih c
  | case4 s base tokens parted ih =>
    rw [parted] at ih
    exact ih
  | case5 c s last escapes colon base tokens parted ih =>
    rw [parted] at ih
    refine bare_collapse_cons ih colon ?_
    rintro rfl
    cases s with
    | nil => exact last rfl rfl
    | cons d s => exact escapes d s rfl rfl

/-- A stripped selector is stripped once and for all. -/
theorem splitPseudo_splitPseudo (s : List Char) :
    splitPseudo (splitPseudo s).1 = ((splitPseudo s).1, []) := by
  have bare : partPseudo (splitPseudo s).1 = ((splitPseudo s).1, []) := bare_collapse_partPseudo s
  rw [splitPseudo, bare]
  exact congrArg (·, []) (Text.collapse_collapse _)

end AuthoredStyle.Sheet
