import AuthoredStyle.Sheet.Reading
import AuthoredStyle.Proofs.Text.Trim

/-!
# Paths of nested selectors

Reading nested blocks makes one selector of the selectors on the way in. Where
each of them is one word of plain characters, that selector is the words with
single spaces between them, and behind an ampersand a pseudo-element stands at its
end. Selectors with lists, combinators or attributes are not treated here.
-/

namespace AuthoredStyle.Sheet

open Text (Solid)

/-- ASCII letters and digits, hyphens, underscores, and the marks of classes and ids. -/
def IsPathChar (c : Char) : Prop := c.isAlphanum = true ∨ c ∈ ['-', '_', '.', '#']

instance (c : Char) : Decidable (IsPathChar c) := inferInstanceAs (Decidable (_ ∨ _))

def IsPathWord (w : List Char) : Prop := w ≠ [] ∧ ∀ c ∈ w, IsPathChar c

instance : DecidablePred IsPathWord := fun w =>
  decidable_of_iff (w.isEmpty = false ∧ w.all (IsPathChar ·) = true) (by simp [IsPathWord])

theorem IsPathChar.ne {c d : Char} (hc : IsPathChar c) (hd : ¬ IsPathChar d) : c ≠ d := by
  rintro rfl
  exact hd hc

theorem IsPathChar.isBlank {c : Char} (h : IsPathChar c) : Text.isBlank c = false := by
  rcases h with h | h
  · have bounds : (48 ≤ c.toNat ∧ c.toNat ≤ 57) ∨ (65 ≤ c.toNat ∧ c.toNat ≤ 90) ∨
        (97 ≤ c.toNat ∧ c.toNat ≤ 122) := by
      change (decide (c.val ≥ 'A'.val ∧ c.val ≤ 'Z'.val) ||
        (decide (c.val ≥ 'a'.val) && decide (c.val ≤ 'z'.val)) ||
        (decide (c.val ≥ '0'.val) && decide (c.val ≤ '9'.val))) = true at h
      simp only [Bool.or_eq_true, Bool.and_eq_true, decide_eq_true_eq,
        UInt32.le_iff_toNat_le, ge_iff_le] at h
      change ((65 ≤ c.toNat ∧ c.toNat ≤ 90) ∨ (97 ≤ c.toNat ∧ c.toNat ≤ 122)) ∨
        (48 ≤ c.toNat ∧ c.toNat ≤ 57) at h
      omega
    simp only [Text.isBlank, Bool.or_eq_false_iff, Bool.and_eq_false_iff, beq_eq_false_iff_ne,
      decide_eq_false_iff_not]
    omega
  · simp only [List.mem_cons, List.not_mem_nil, or_false] at h
    rcases h with rfl | rfl | rfl | rfl <;> rfl

theorem IsPathWord.solid {w : List Char} (h : IsPathWord w) : Solid w :=
  ⟨h.1, fun c hc => (h.2 c hc).isBlank⟩

theorem IsPathWord.not_mem {w : List Char} (h : IsPathWord w) {d : Char} (hd : ¬ IsPathChar d) :
    d ∉ w :=
  fun hw => hd (h.2 d hw)

section Lists

theorem commaFields_of_none {depth : Nat} {s : List Char} (h : ',' ∉ s) :
    commaFields depth s = [s] := by
  induction s generalizing depth with
  | nil => rfl
  | cons c s ih =>
    obtain ⟨other, later⟩ := List.ne_and_not_mem_of_not_mem_cons h
    have here : ¬ (c = ',' ∧ depth = 0) := fun e => other e.1.symm
    rw [commaFields, if_neg here]
    dsimp only
    rw [ih later]

theorem selectorList_solid {w : List Char} (solid : Solid w) (h : ',' ∉ w) :
    selectorList w = [w] := by
  rw [selectorList, commaFields_of_none h]
  have stays : Text.collapse w = w := by
    rw [Text.collapse, Text.words_solid solid, List.intercalate_singleton]
  simp [stays, solid.1]

end Lists

/-- The selector that words on the way in make. -/
def spaced (words : List (List Char)) : List Char := [' '].intercalate words

/-- What blocks nested under the words have as parents. -/
def under (words : List (List Char)) : List (List Char) :=
  if words.isEmpty then [] else [spaced words]

theorem spaced_snoc {words : List (List Char)} (w : List Char) (named : words ≠ []) :
    spaced (words ++ [w]) = spaced words ++ ' ' :: w := by
  induction words with
  | nil => exact absurd rfl named
  | cons v words ih =>
    by_cases last : words = []
    · subst last
      simp [spaced, List.intercalate_cons_cons]
    · have onward := ih last
      simp only [spaced] at onward ⊢
      rw [List.cons_append, List.intercalate_cons_of_ne_nil (by simp), onward,
        List.intercalate_cons_of_ne_nil last]
      simp

theorem nest_under {w : List Char} (words : List (List Char)) (h : '&' ∉ w) :
    nest (under words) [w] = under (words ++ [w]) := by
  by_cases first : words = []
  · subst first
    simp [under, nest, spaced]
  · simp [under, nest, nestUnder, first, h, spaced_snoc w first]

theorem substitute_absent {mark : Char} (by' : List Char) {s : List Char} (h : mark ∉ s) :
    Text.substitute mark by' s = s := by
  have each : s.flatMap (fun c => if c = mark then by' else [c]) = s.flatMap fun c => [c] := by
    refine List.flatMap_congr fun c hc => if_neg ?_
    rintro rfl
    exact h hc
  rw [Text.substitute, each, List.flatMap_singleton']

theorem nest_ampersand {words : List (List Char)} {mark : List Char} (named : words ≠ [])
    (h : '&' ∉ mark) : nest (under words) ['&' :: mark] = [spaced words ++ mark] := by
  have here : Text.substitute '&' (spaced words) ('&' :: mark) = spaced words ++ mark := by
    have behind := substitute_absent (spaced words) h
    rw [Text.substitute] at behind
    rw [Text.substitute, List.flatMap_cons, if_pos rfl, behind]
  simp [under, named, nest, nestUnder, here]

section Classification

theorem partPseudo_append {s : List Char} (t : List Char) (colon : ':' ∉ s) (slash : '\\' ∉ s) :
    partPseudo (s ++ t) = (s ++ (partPseudo t).1, (partPseudo t).2) := by
  induction s with
  | nil => rfl
  | cons c s ih =>
    obtain ⟨notColon, colon⟩ := List.ne_and_not_mem_of_not_mem_cons colon
    obtain ⟨notSlash, slash⟩ := List.ne_and_not_mem_of_not_mem_cons slash
    rw [List.cons_append, partPseudo, ih colon slash]
    · rfl
    · rintro rfl
      exact absurd rfl notSlash
    · rintro d rest rfl
      exact absurd rfl notSlash
    · rintro rfl
      exact absurd rfl notColon

theorem partPseudo_plain {s : List Char} (colon : ':' ∉ s) (slash : '\\' ∉ s) :
    partPseudo s = (s, []) := by
  have := partPseudo_append [] colon slash
  rw [List.append_nil] at this
  rw [this]
  simp [partPseudo]

theorem partPseudo_element (element : PseudoElement) :
    partPseudo element.text.toList = ([], [element.text.toList]) := by
  cases element <;> decide +kernel

/-- Names a class or an id. -/
def NamesClassOrId (selector : List Char) : Prop := '.' ∈ selector ∨ '#' ∈ selector

instance (selector : List Char) : Decidable (NamesClassOrId selector) :=
  inferInstanceAs (Decidable (_ ∨ _))

section Words

variable {words : List (List Char)} (hw : ∀ w ∈ words, IsPathWord w)
include hw

theorem isPathChar_of_mem_spaced {c : Char} (h : c ∈ spaced words) : c = ' ' ∨ IsPathChar c := by
  induction words with
  | nil => exact absurd h List.not_mem_nil
  | cons w words ih =>
    have hws : ∀ v ∈ words, IsPathWord v := fun v hv => hw v (List.mem_cons_of_mem w hv)
    have here : c ∈ w → c = ' ' ∨ IsPathChar c := fun hc => .inr ((hw w List.mem_cons_self).2 c hc)
    by_cases last : words = []
    · subst last
      exact here (by simpa [spaced] using h)
    · rw [spaced, List.intercalate_cons_of_ne_nil last, List.append_assoc] at h
      rcases List.mem_append.mp h with h | h
      · exact here h
      · rcases List.mem_append.mp h with h | h
        · exact .inl (List.mem_singleton.mp h)
        · exact ih hws h

theorem not_mem_spaced {c : Char} (blank : c ≠ ' ') (other : ¬ IsPathChar c) :
    c ∉ spaced words := by
  intro h
  rcases isPathChar_of_mem_spaced hw h with h | h
  · exact blank h
  · exact other h

theorem spaced_eq_cons (named : words ≠ []) : ∃ c rest, spaced words = c :: rest ∧ IsPathChar c := by
  cases words with
  | nil => exact absurd rfl named
  | cons w words =>
    obtain ⟨visible, plain⟩ := hw w List.mem_cons_self
    cases w with
    | nil => exact absurd rfl visible
    | cons c w =>
      have first := plain c List.mem_cons_self
      cases words with
      | nil => exact ⟨c, w, by simp [spaced], first⟩
      | cons v words => exact ⟨c, _, by rw [spaced, List.intercalate_cons_cons]; rfl, first⟩

theorem isGeneric_spaced (named : words ≠ []) :
    isGeneric (spaced words) = !decide (NamesClassOrId (spaced words)) := by
  have trimmed : Text.trim (spaced words) = spaced words :=
    Text.trim_spaced fun w h => (hw w h).solid
  obtain ⟨c, rest, starts, first⟩ := spaced_eq_cons hw named
  have star : c ≠ '*' := first.ne (by decide)
  have at' : c ≠ '@' := first.ne (by decide)
  have bracket : c ≠ '[' := first.ne (by decide)
  rw [isGeneric, trimmed]
  simp [star, starts, at', bracket, NamesClassOrId]

theorem splitPseudo_spaced : splitPseudo (spaced words) = (spaced words, []) := by
  have colon := not_mem_spaced hw (c := ':') (by decide) (by decide)
  have slash := not_mem_spaced hw (c := '\\') (by decide) (by decide)
  rw [splitPseudo, partPseudo_plain colon slash]
  exact congrArg (·, []) (Text.collapse_spaced fun w h => (hw w h).solid)

theorem splitPseudo_element (element : PseudoElement) :
    splitPseudo (spaced words ++ element.text.toList) =
      (spaced words, [element.text.toList]) := by
  have colon := not_mem_spaced hw (c := ':') (by decide) (by decide)
  have slash := not_mem_spaced hw (c := '\\') (by decide) (by decide)
  rw [splitPseudo, partPseudo_append _ colon slash, partPseudo_element, List.append_nil]
  exact congrArg (·, _) (Text.collapse_spaced fun w h => (hw w h).solid)

/-- A path is a rule's selector as it stands. -/
theorem ruleOf_spaced (named : words ≠ []) (ds : Declarations) (file : String) :
    ruleOf (spaced words) ds file =
      if NamesClassOrId (spaced words) then
        { plain := [⟨.ofList (spaced words), .ofList (ds.map (·.1)), file⟩] }
      else ∅ := by
  rw [ruleOf, splitPseudo_spaced hw]
  simp [isGeneric_spaced hw named]

theorem ruleOf_element (named : words ≠ []) (element : PseudoElement) (ds : Declarations)
    (file : String) :
    ruleOf (spaced words ++ element.text.toList) ds file =
      if NamesClassOrId (spaced words) then
        { pseudo := [⟨.ofList (spaced words), element, .ofList ds⟩] }
      else ∅ := by
  have known : elementOf? element.text.toList = some element := by
    cases element <;> decide +kernel
  rw [ruleOf, splitPseudo_element hw]
  simp [isGeneric_spaced hw named, isOtherElement, known]

end Words

end Classification

end AuthoredStyle.Sheet
