import AuthoredStyle.Proofs.Selector.Escaped
import AuthoredStyle.Proofs.Sheet.Reads
import AuthoredStyle.Proofs.Sheet.Rereading
import AuthoredStyle.Proofs.Sheet.SelectorList

/-!
# Selectors of escaped names

A list of selectors is cut at commas and a selector at its pseudo tokens. A backslash keeps
a colon in its selector, but not a comma: at each comma outside brackets an escaped name is
cut behind the backslash, and each of the texts that are left writes a name of its own.
-/

namespace AuthoredStyle.Sheet

open Selector (escape escapeChar isPlain Writes)
open Text (Solid)

section Brackets

variable (opening closing : List Char)

def bracketDepth (depth : Nat) (c : Char) : Nat :=
  if c ∈ opening then depth + 1 else if c ∈ closing then depth - 1 else depth

/-- The mark stands only where a bracket is open. -/
def OnlyInside (mark : Char) : (depth : Nat) → List Char → Bool
  | _, [] => true
  | depth, c :: s =>
    !(c = mark && depth = 0) && OnlyInside mark (bracketDepth opening closing depth c) s

end Brackets

section Lists

/-- Commas outside brackets of both kinds cut a list of selectors. -/
def CommasInside : Nat → List Char → Bool := OnlyInside ['(', '['] [')', ']'] ','

theorem commaFields_cons_kept {depth : Nat} {c : Char} {s f : List Char} {fs : List (List Char)}
    (kept : ¬ (c = ',' ∧ depth = 0))
    (later : commaFields (bracketDepth ['(', '['] [')', ']'] depth c) s = f :: fs) :
    commaFields depth (c :: s) = (c :: f) :: fs := by
  have inner : (if c = '(' ∨ c = '[' then depth + 1 else if c = ')' ∨ c = ']' then depth - 1
      else depth) = bracketDepth ['(', '['] [')', ']'] depth c := by
    simp [bracketDepth]
  rw [commaFields, if_neg kept]
  dsimp only
  rw [inner, later]

theorem commaFields_escapeChar {depth : Nat} {c : Char} {s f : List Char} {fs : List (List Char)}
    (kept : ¬ (c = ',' ∧ depth = 0))
    (later : commaFields (bracketDepth ['(', '['] [')', ']'] depth c) s = f :: fs) :
    commaFields depth (escapeChar c ++ s) = (escapeChar c ++ f) :: fs := by
  have here := commaFields_cons_kept kept later
  rw [escapeChar]
  split
  · exact here
  · exact commaFields_cons_kept (by simp) here

/-- An escaped name is cut at its first comma outside brackets, behind the backslash. -/
theorem commaFields_escape (depth : Nat) (name : List Char) :
    (CommasInside depth name = true ∧ commaFields depth (escape name) = [escape name]) ∨
      CommasInside depth name = false ∧ ∃ x y, name = x ++ ',' :: y ∧
        commaFields depth (escape name) = (escape x ++ ['\\']) :: commaFields 0 (escape y) := by
  induction name generalizing depth with
  | nil => exact .inl ⟨rfl, rfl⟩
  | cons c name ih =>
    by_cases cut : c = ',' ∧ depth = 0
    · obtain ⟨rfl, rfl⟩ := cut
      refine .inr ⟨rfl, [], name, rfl, ?_⟩
      have special : escapeChar ',' = ['\\', ','] := rfl
      rw [Selector.escape_cons, special]
      rfl
    · have free : (!(decide (c = ',') && decide (depth = 0))) = true := by
        rw [← Bool.decide_and, decide_eq_false cut]
        rfl
      have onward : CommasInside depth (c :: name) =
          CommasInside (bracketDepth ['(', '['] [')', ']'] depth c) name := by
        rw [CommasInside, OnlyInside, free, Bool.true_and]
      rw [onward, Selector.escape_cons]
      rcases ih (bracketDepth ['(', '['] [')', ']'] depth c) with
        ⟨inside, whole⟩ | ⟨outside, x, y, rfl, split⟩
      · exact .inl ⟨inside, commaFields_escapeChar cut whole⟩
      · refine .inr ⟨outside, c :: x, y, rfl, ?_⟩
        rw [commaFields_escapeChar cut split, Selector.escape_cons, List.append_assoc]

theorem writes_of_mem_commaFields {name : List Char} (depth : Nat) :
    ∀ f ∈ commaFields depth (escape name), ∃ v, Writes f v ∧ ∀ c ∈ v, c ∈ name := by
  rcases commaFields_escape depth name with ⟨-, whole⟩ | ⟨-, x, y, split, cut⟩
  · rw [whole]
    exact List.forall_mem_singleton.mpr ⟨name, .inl rfl, fun _ hc => hc⟩
  · rw [cut]
    refine List.forall_mem_cons.mpr ⟨⟨x, .inr rfl, fun c hc => by simp [split, hc]⟩, ?_⟩
    intro f hf
    obtain ⟨v, writes, within⟩ := writes_of_mem_commaFields 0 f hf
    exact ⟨v, writes, fun c hc => by simp [split, within c hc]⟩
termination_by name.length
decreasing_by
  rw [split, List.length_append, List.length_cons]
  omega

theorem collapse_visible {f : List Char} (visible : ∀ c ∈ f, Text.isBlank c = false) :
    Text.collapse f = f := by
  by_cases none : f = []
  · rw [none]
    rfl
  · rw [Text.collapse, Text.words_solid ⟨none, visible⟩, List.intercalate_singleton]

/-- Fields without blanks are listed as they are. -/
theorem mem_commaFields_of_mem_selectorList {prelude : List Char}
    (visible : ∀ f ∈ commaFields 0 prelude, ∀ c ∈ f, Text.isBlank c = false) {f : List Char}
    (hf : f ∈ selectorList prelude) : f ∈ commaFields 0 prelude := by
  have same : (commaFields 0 prelude).map Text.collapse = commaFields 0 prelude :=
    (List.map_congr_left fun f hf => collapse_visible (visible f hf)).trans (List.map_id _)
  rw [selectorList, same] at hf
  exact List.mem_of_mem_filter hf

end Lists

/-! ## Rules for escaped names -/

section Rules

/-- A backslash keeps every character in the base of a selector. -/
theorem partPseudo_escape (name s : List Char) :
    partPseudo (escape name ++ s) = (escape name ++ (partPseudo s).1, (partPseudo s).2) := by
  induction name with
  | nil => rfl
  | cons c name ih =>
    rw [Selector.escape_cons, List.append_assoc, List.append_assoc]
    cases plain : isPlain c with
    | true =>
      have colon : ':' ∉ [c] := by
        simpa using (Selector.ne_of_isPlain plain (by decide)).symm
      have slash : '\\' ∉ [c] := by
        simpa using (Selector.ne_of_isPlain plain (by decide)).symm
      rw [Selector.escapeChar_plain plain, partPseudo_append _ colon slash, ih]
    | false =>
      rw [Selector.escapeChar_special plain, List.cons_append, List.cons_append, List.nil_append,
        partPseudo, ih]
      rfl

theorem partPseudo_writes {text name : List Char} (writes : Writes text name) :
    partPseudo text = (text, []) := by
  rcases writes with rfl | rfl
  · have whole := partPseudo_escape name []
    rw [List.append_nil] at whole
    rw [whole]
    simp [partPseudo]
  · rw [partPseudo_escape]
    simp [partPseudo]

/-- A selector without blanks and pseudo tokens, which a rule keeps as it was written. -/
def IsBare (f : List Char) : Prop :=
  (∀ c ∈ f, Text.isBlank c = false) ∧ partPseudo f = (f, [])

theorem isBare_writes {text name : List Char} (writes : Writes text name)
    (visible : ∀ c ∈ name, Text.isBlank c = false) : IsBare text :=
  ⟨writes.visible visible, partPseudo_writes writes⟩

theorem isBare_led {text name : List Char} (writes : Writes text name)
    (visible : ∀ c ∈ name, Text.isBlank c = false) : IsBare ('.' :: text) := by
  refine ⟨List.forall_mem_cons.mpr ⟨by decide, writes.visible visible⟩, ?_⟩
  rw [partPseudo, partPseudo_writes writes]
  all_goals simp

theorem ruleOf_bare {f : List Char} (bare : IsBare f) (ds : Declarations) (file : String) :
    ruleOf f ds file =
      if isGeneric f then ∅ else { plain := [⟨.ofList f, .ofList (ds.map (·.1)), file⟩] } := by
  rw [ruleOf, splitPseudo, bare.2]
  simp [collapse_visible bare.1]

theorem selector_mem_commaFields {prelude : List Char} {said : List (List Char)} {file : String}
    (bare : ∀ f ∈ commaFields 0 prelude, IsBare f)
    {r : PlainRule} (hr : r ∈ (rulesSaid (selectorList prelude) said file).plain) :
    r.selector.toList ∈ commaFields 0 prelude := by
  rw [rulesSaid] at hr
  split at hr
  · exact absurd hr List.not_mem_nil
  · rw [RuleSet.bucket_join rfl RuleSet.plain_append] at hr
    obtain ⟨rules, made, hr⟩ := List.mem_flatMap.mp hr
    obtain ⟨f, listed, rfl⟩ := List.mem_map.mp made
    have hf := mem_commaFields_of_mem_selectorList (fun f hf => (bare f hf).1) listed
    rw [ruleOf_bare (bare f hf)] at hr
    split at hr
    · exact absurd hr List.not_mem_nil
    · rw [List.mem_singleton.mp hr, String.toList_ofList]
      exact hf

end Rules

end AuthoredStyle.Sheet
