import Mathlib.Data.List.Dedup
import AuthoredStyle.Proofs.Cascade.Written

/-!
# Specificity and repetition

The specificity of a selector is added up over the compounds that were read. A compound
keeps the last of its ids and a set of its classes, so an id or a class that is written again
in the same compound adds nothing, while an attribute that is written again does. A tag adds
something if it starts with a letter.
-/

namespace AuthoredStyle.Cascade

/-! ## Counting what is written -/

/-- A front and conditions behind it, with values that the reader does not cut. -/
structure WrittenCompound where
  front : Front
  conditions : List Condition
  intact : ∀ d ∈ conditions, ∀ v ∈ d.values, v.Intact

namespace WrittenCompound

def text (w : WrittenCompound) : List Char := w.front.text ++ conditionsText w.conditions

/-- How many ids, how many classes and attributes, and how many tags are written. -/
def counts (w : WrittenCompound) : Specificity where
  ids := (idNames w.conditions).length
  classes := (classNames w.conditions).length + (attributeTests w.conditions).length
  tags := match w.front with
    | .tag _ => 1
    | .star => 0
    | .none => 0

/-- At most one id, no class twice, and no tag but one that starts with a letter. -/
structure CountsOnce (w : WrittenCompound) : Prop where
  ids : (idNames w.conditions).length ≤ 1
  classes : (classNames w.conditions).Nodup
  tag : ∀ name, w.front = .tag name → name.text.head?.any Char.isAlpha = true

end WrittenCompound

def Specificity.total (ss : List Specificity) : Specificity := ss.foldr Specificity.add ⟨0, 0, 0⟩

/-- What is counted over a whole selector. -/
def writtenSpecificity (key : WrittenCompound) (left : List (Combinator × WrittenCompound)) :
    Specificity :=
  .total ((key :: left.map (·.2)).map WrittenCompound.counts)

/-! ## Totals -/

/-- No part is more. -/
structure Specificity.Within (a b : Specificity) : Prop where
  ids : a.ids ≤ b.ids
  classes : a.classes ≤ b.classes
  tags : a.tags ≤ b.tags

namespace Specificity

theorem zero_add (a : Specificity) : add ⟨0, 0, 0⟩ a = a := by
  simp [add]

theorem add_assoc (a b c : Specificity) : (a.add b).add c = a.add (b.add c) := by
  simp [add, Nat.add_assoc]

section Within

variable {a b c d : Specificity} (first : a.Within c) (second : b.Within d)
include first second

theorem Within.add : (a.add b).Within (c.add d) :=
  ⟨Nat.add_le_add first.ids second.ids, Nat.add_le_add first.classes second.classes,
    Nat.add_le_add first.tags second.tags⟩

theorem Within.add_eq_iff : a.add b = c.add d ↔ a = c ∧ b = d := by
  refine ⟨fun same => ?_, fun ⟨left, right⟩ => by rw [left, right]⟩
  obtain ⟨ids, classes, tags⟩ := first
  obtain ⟨ids', classes', tags'⟩ := second
  obtain ⟨sameIds, sameClasses, sameTags⟩ := Specificity.mk.inj same
  cases a
  cases b
  cases c
  cases d
  simp only [Specificity.mk.injEq] at *
  omega

end Within

/-- Totals of parts that are nowhere more agree only if the parts do. -/
theorem total_map_eq_iff {α : Type} {f g : α → Specificity} {xs : List α}
    (within : ∀ x ∈ xs, (f x).Within (g x)) :
    (total (xs.map f)).Within (total (xs.map g)) ∧
      (total (xs.map f) = total (xs.map g) ↔ ∀ x ∈ xs, f x = g x) := by
  induction xs with
  | nil => exact ⟨⟨Nat.le_refl _, Nat.le_refl _, Nat.le_refl _⟩, by simp⟩
  | cons x xs ih =>
    obtain ⟨here, later⟩ := List.forall_mem_cons.mp within
    obtain ⟨rest, same⟩ := ih later
    rw [List.forall_mem_cons, ← same]
    exact ⟨here.add rest, here.add_eq_iff rest⟩

theorem total_map_filter {α : Type} {f : α → Specificity} {keep : α → Bool}
    (nothing : ∀ x, keep x = false → f x = ⟨0, 0, 0⟩) (xs : List α) :
    total ((xs.filter keep).map f) = total (xs.map f) := by
  induction xs with
  | nil => rfl
  | cons x xs ih =>
    have whole : total ((x :: xs).map f) = (f x).add (total (xs.map f)) := rfl
    rw [List.filter_cons, whole]
    cases here : keep x with
    | true => exact congrArg (f x).add ih
    | false => rw [nothing x here, zero_add, ← ih]; rfl

end Specificity

/-! ## Sets of classes -/

theorem size_ofList (xs : List String) : (NameSet.ofList xs).size = xs.dedup.length := by
  have once : (NameSet.ofList xs).toList.Nodup :=
    (NameSet.ofList xs).increasing.imp fun below => String.ne_of_lt below
  refine ((List.perm_ext_iff_of_nodup once xs.nodup_dedup).mpr fun x => ?_).length_eq
  rw [← NameSet.mem_def, NameSet.mem_ofList, List.mem_dedup]

theorem size_ofList_le (xs : List String) : (NameSet.ofList xs).size ≤ xs.length := by
  rw [size_ofList]
  exact xs.dedup_sublist.length_le

theorem size_ofList_eq_length_iff (xs : List String) :
    (NameSet.ofList xs).size = xs.length ↔ xs.Nodup := by
  rw [size_ofList, ← List.dedup_eq_self]
  exact ⟨xs.dedup_sublist.eq_of_length, fun same => by rw [same]⟩

theorem specificity_eq_total (s : Complex) :
    s.specificity = .total ((s.key :: s.left.map (·.2)).map Compound.specificity) := by
  obtain ⟨key, left⟩ := s
  rw [Complex.specificity, List.map_cons]
  dsimp only
  have whole (start : Specificity) :
      left.foldl (fun total l => total.add l.2.specificity) start =
        start.add (.total ((left.map (·.2)).map Compound.specificity)) := by
    induction left generalizing start with
    | nil => rfl
    | cons l left ih => rw [List.foldl_cons, ih, Specificity.add_assoc]; rfl
  exact whole _

/-! ## Compounds -/

section Compounds

variable (w : WrittenCompound)

theorem WrittenCompound.specificity_ofText :
    (Compound.ofText w.text).specificity =
      ⟨if idNames w.conditions = [] then 0 else 1,
        (NameSet.ofList (classNames w.conditions)).size + (attributeTests w.conditions).length,
        if w.front.tag?.isSome then 1 else 0⟩ := by
  have closed : ∀ d ∈ w.conditions, ∀ v ∈ d.values, ']' ∉ v.text :=
    fun d hd v hv bracket => (w.intact d hd v hv ']' bracket).2 rfl
  rw [text, ofText_written w.front closed, foldl_ask, Compound.specificity]
  cases last : (idNames w.conditions).getLast? with
  | none =>
    rw [List.getLast?_eq_none_iff.mp last]
    simp [NameSet.ofList]
  | some name =>
    have some : idNames w.conditions ≠ [] := by
      intro none
      rw [none] at last
      cases last
    simp [some, NameSet.ofList]

theorem WrittenCompound.specificity_within :
    (Compound.ofText w.text).specificity.Within w.counts := by
  have classes := size_ofList_le (classNames w.conditions)
  rw [w.specificity_ofText]
  refine ⟨?_, ?_, ?_⟩
  · cases shape : idNames w.conditions <;> simp [counts, shape]
  · simp only [counts]
    omega
  · cases shape : w.front with
    | none | star => simp [counts, shape, Front.tag?]
    | tag name =>
      simp only [counts, shape]
      split <;> omega

theorem WrittenCompound.specificity_eq_counts_iff :
    (Compound.ofText w.text).specificity = w.counts ↔ w.CountsOnce := by
  have ids : (if idNames w.conditions = [] then 0 else 1) = w.counts.ids ↔
      (idNames w.conditions).length ≤ 1 := by
    rcases shape : idNames w.conditions with _ | ⟨name, _ | ⟨other, rest⟩⟩ <;> simp [counts, shape]
  have classes : (NameSet.ofList (classNames w.conditions)).size +
      (attributeTests w.conditions).length = w.counts.classes ↔
      (classNames w.conditions).Nodup := by
    rw [← size_ofList_eq_length_iff, counts]
    exact Nat.add_right_cancel_iff
  have tags : (if w.front.tag?.isSome then 1 else 0) = w.counts.tags ↔
      ∀ name, w.front = .tag name → name.text.head?.any Char.isAlpha = true := by
    cases shape : w.front with
    | none | star => simp [counts, shape, Front.tag?]
    | tag name =>
      cases letter : name.text.head?.any Char.isAlpha <;> simp [counts, shape, Front.tag?, letter]
  rw [w.specificity_ofText, Specificity.mk.injEq]
  refine ⟨?_, fun once => ⟨ids.mpr once.ids, classes.mpr once.classes, tags.mpr once.tag⟩⟩
  rintro ⟨i, c, t⟩
  exact ⟨ids.mp i, classes.mp c, tags.mp t⟩

end Compounds

/-! ## Selectors -/

section Selectors

variable (key : WrittenCompound) (left : List (Combinator × WrittenCompound))

/-- The text of a whole selector. -/
def writtenText : String := .ofList (selectorText key.text (left.map fun l => (l.1, l.2.text)))

/-- A compound is one word, if it has any text. -/
theorem WrittenCompound.compoundWords_text (w : WrittenCompound) :
    Selector.compoundWords (Text.words w.text) = if w.text = [] then [] else [w.text] := by
  by_cases none : w.text = []
  · rw [none]
    rfl
  · obtain ⟨solid, other⟩ := isCompoundWord_written
      (fun d hd v hv c hc => (w.intact d hd v hv c hc).1) none
    rw [if_neg none, text, Text.words_solid solid, Selector.compoundWords, List.filter_cons, other]
    rfl

theorem flatMap_compoundWords (ws : List WrittenCompound) :
    (ws.map WrittenCompound.text).flatMap (fun t => Selector.compoundWords (Text.words t)) =
      (ws.filter (·.text ≠ [])).map WrittenCompound.text := by
  induction ws with
  | nil => rfl
  | cons w ws ih =>
    rw [List.map_cons, List.flatMap_cons, ih, w.compoundWords_text, List.filter_cons]
    by_cases none : w.text = [] <;> simp [none]

/-- The compounds read are those written that have any text. -/
theorem compoundsOf_written :
    Selector.compoundsOf ((Text.words (writtenText key left).toList).foldl Progress.word {}) =
      ((key :: left.map (·.2)).filter (·.text ≠ [])).map fun w => .ofText w.text := by
  have texts : key.text :: (left.map fun l => (l.1, l.2.text)).map (·.2) =
      (key :: left.map (·.2)).map WrittenCompound.text := by simp
  have none : Selector.compoundsOf {} = [] := rfl
  rw [writtenText, String.toList_ofList, Selector.compoundsOf_foldl, compoundWords_selectorText,
    texts, ← List.map_reverse (l := key :: left.map (·.2)), flatMap_compoundWords,
    List.filter_reverse, none, List.append_nil, List.map_map, List.map_reverse,
    List.reverse_reverse]
  rfl

/-- A written selector with any text is read, and its specificity is what is counted over its
text just if no compound repeats an id or a class or has a tag that starts with no letter. -/
theorem specificity_counts_written_iff (written : ∃ w ∈ key :: left.map (·.2), w.text ≠ []) :
    ∃ s, Complex.ofText? (writtenText key left) = some s ∧
      (s.specificity = writtenSpecificity key left ↔
        ∀ w ∈ key :: left.map (·.2), w.CountsOnce) := by
  have compounds := compoundsOf_written key left
  rw [writtenSpecificity]
  generalize key :: left.map (·.2) = ws at written compounds ⊢
  obtain ⟨w, hw, any⟩ := written
  have read : (ws.filter (·.text ≠ [])).map (fun w => Compound.ofText w.text) ≠ [] := by
    rw [ne_eq, List.map_eq_nil_iff]
    exact List.ne_nil_of_mem (List.mem_filter.mpr ⟨hw, by simpa using any⟩)
  rw [Selector.compoundsOf] at compounds
  split at compounds
  · exact absurd compounds.symm read
  · rename_i s shape
    refine ⟨s, shape, ?_⟩
    have nothing (w : WrittenCompound) (hw : decide (w.text ≠ []) = false) :
        (Compound.ofText w.text).specificity = ⟨0, 0, 0⟩ := by
      have none : w.text = [] := by simpa using hw
      rw [none]
      decide +kernel
    have whole : s.specificity = .total (ws.map fun w => (Compound.ofText w.text).specificity) := by
      rw [specificity_eq_total, compounds, List.map_map]
      exact Specificity.total_map_filter nothing ws
    rw [whole, (Specificity.total_map_eq_iff fun w _ => w.specificity_within).2]
    exact forall₂_congr fun w _ => w.specificity_eq_counts_iff

end Selectors

/-- The class `k` as often as is said. -/
def repeatedClass (times : Nat) : WrittenCompound where
  front := .none
  conditions := .replicate times (.cls ⟨['k'], by simp, List.forall_mem_singleton.mpr rfl⟩)
  intact := by simp +contextual [Condition.values]

/-- In `.k > .k` both classes count, in `.k.k` they do not. -/
theorem specificity_counts_written_iff_of_doubled :
    (∃ s, Complex.ofText? ".k > .k" = some s ∧ s.specificity = ⟨0, 2, 0⟩) ∧
      ∃ s, Complex.ofText? ".k.k" = some s ∧ s.specificity ≠ ⟨0, 2, 0⟩ := by
  have once : (repeatedClass 1).CountsOnce :=
    ⟨by decide, by decide +kernel, by simp [repeatedClass]⟩
  have twice : ¬ (repeatedClass 2).CountsOnce := fun h => absurd h.classes (by decide +kernel)
  obtain ⟨s, read, same⟩ := specificity_counts_written_iff (repeatedClass 1)
    [(.child, repeatedClass 1)] ⟨_, List.mem_cons_self, by decide⟩
  obtain ⟨t, readTwice, differ⟩ := specificity_counts_written_iff (repeatedClass 2) []
    ⟨_, List.mem_cons_self, by decide⟩
  refine ⟨⟨s, read, same.mpr ?_⟩, t, readTwice, fun h => ?_⟩
  · simp [once]
  · exact twice (differ.mp h _ List.mem_cons_self)

/-- Of a class that is written twice only one is counted. -/
theorem repeated_class_counts_once :
    ¬ ∀ key left s, Complex.ofText? (writtenText key left) = some s →
      s.specificity = writtenSpecificity key left := by
  intro always
  have read : Complex.ofText? (writtenText (repeatedClass 2) []) =
      some ⟨{ classes := .ofList ["k"] }, []⟩ := by decide +kernel
  have same := always (repeatedClass 2) [] _ read
  exact absurd same (by decide +kernel)

end AuthoredStyle.Cascade
