import AuthoredStyle.Proofs.Selector.Readers
import AuthoredStyle.Proofs.Sheet.Path

/-!
# Written selectors

A compound is written as a front, which is a tag, a star or nothing, and conditions behind
it in any order: ids, classes and attributes, whose values stand in double quotes. Compounds
are tied by a blank or by a combinator between two blanks.

The cascade's reader finds the conditions one by one as long as no value has a closing
bracket. It cuts a selector at blanks before it looks at brackets, so a compound is one word
only if none of its values has a blank.
-/

namespace AuthoredStyle.Cascade

open Selector (isPlain ne_of_isPlain isMark_eq_false_of_isPlain span_name compoundWords compoundsOf)

/-! ## Names and values -/

/-- ASCII letters, digits, hyphens and underscores. -/
structure Name where
  text : List Char
  ne_nil : text ≠ []
  plain : ∀ c ∈ text, isPlain c = true

/-- What may stand between double quotes. -/
structure QuotedValue where
  text : List Char
  free : ∀ c ∈ text, c ∉ ['"', '\'', '\\']

/-- It has no blank, at which selectors are cut, and no closing bracket, at which attributes
are. -/
def QuotedValue.Intact (v : QuotedValue) : Prop :=
  ∀ c ∈ v.text, Text.isBlank c = false ∧ c ≠ ']'

section Plain

variable {c : Char}

theorem isPathChar_of_isPlain (plain : isPlain c = true) : Sheet.IsPathChar c := by
  simp only [isPlain, Bool.or_eq_true, decide_eq_true_eq] at plain
  rcases plain with (letter | rfl) | rfl
  · exact .inl letter
  · exact .inr (by decide)
  · exact .inr (by decide)

theorem Name.solid (n : Name) : Text.Solid n.text :=
  ⟨n.ne_nil, fun c hc => (isPathChar_of_isPlain (n.plain c hc)).isBlank⟩

theorem Name.exists_cons (n : Name) :
    ∃ c rest, n.text = c :: rest ∧ Text.isBlank c = false ∧ c ∉ ['>', '+', '~'] := by
  obtain ⟨c, rest, shape⟩ := List.exists_cons_of_ne_nil n.ne_nil
  have plain : isPlain c = true := n.plain c (by simp [shape])
  refine ⟨c, rest, shape, n.solid.2 c (by simp [shape]), ?_⟩
  simpa using ⟨ne_of_isPlain plain rfl, ne_of_isPlain plain rfl, ne_of_isPlain plain rfl⟩

theorem Name.not_mem (n : Name) {d : Char} (special : isPlain d = false) : d ∉ n.text :=
  fun hd => ne_of_isPlain (n.plain d hd) special rfl

theorem toNat_lt_of_isPlain (plain : isPlain c = true) : c.toNat < 128 := by
  have below {high : UInt32} (h : c.val ≤ high) (small : high.toNat < 128) : c.toNat < 128 :=
    Nat.lt_of_le_of_lt (UInt32.le_iff_toNat_le.mp h) small
  simp only [isPlain, Bool.or_eq_true, decide_eq_true_eq] at plain
  rcases plain with (letter | rfl) | rfl
  · have kinds : (decide (c.val ≥ 'A'.val ∧ c.val ≤ 'Z'.val) ||
        (decide (c.val ≥ 'a'.val) && decide (c.val ≤ 'z'.val)) ||
          (decide (c.val ≥ '0'.val) && decide (c.val ≤ '9'.val))) = true := letter
    simp only [Bool.or_eq_true, Bool.and_eq_true, decide_eq_true_eq] at kinds
    rcases kinds with (⟨-, upper⟩ | ⟨-, lower⟩) | ⟨-, digit⟩
    · exact below upper (by decide)
    · exact below lower (by decide)
    · exact below digit (by decide)
  · decide
  · decide

/-- Of the plain characters only the letters of ASCII are letters. -/
theorem isLetter_of_isPlain (plain : isPlain c = true) : Text.isLetter c = c.isAlpha := by
  have low : ¬ 128 ≤ c.toNat := Nat.not_le.mpr (toNat_lt_of_isPlain plain)
  rw [Text.isLetter, Text.inRanges, decide_eq_false low, Bool.false_and, Bool.or_false]

end Plain

/-! ## Attributes -/

/-- What stands between a name and the equals sign. -/
def Comparison.mark : Comparison → List Char
  | .exact => []
  | .includes => ['~']
  | .startsWith => ['^']
  | .endsWith => ['$']
  | .substring => ['*']
  | .dashMatch => ['|']

theorem Comparison.not_mem_mark (how : Comparison) {d : Char} (other : d ∉ ['~', '^', '$', '*', '|']) :
    d ∉ how.mark := by
  cases how <;> simp_all [Comparison.mark]

theorem Comparison.visible_mark (how : Comparison) : ∀ c ∈ how.mark, Text.isBlank c = false := by
  cases how with
  | exact => exact fun c hc => absurd hc List.not_mem_nil
  | includes | startsWith | endsWith | substring | dashMatch => exact List.forall_mem_singleton.mpr rfl

/-- A name, if need be with a comparison and a quoted value, as it stands in brackets. -/
def attributeBody (name : Name) : Option (Comparison × QuotedValue) → List Char
  | none => name.text
  | some (how, v) => name.text ++ how.mark ++ '=' :: '"' :: (v.text ++ ['"'])

def attributeOf (name : Name) (value : Option (Comparison × QuotedValue)) : AttributeTest :=
  ⟨.ofList name.text, value.map fun v => (v.1, .ofList v.2.text)⟩

section Attributes

variable (name : Name) (how : Comparison)

theorem comparison_mark : comparison (name.text ++ how.mark) = (name.text, how) := by
  obtain ⟨front, last, shape⟩ : ∃ front last, name.text = front ++ [last] :=
    ⟨_, _, (List.dropLast_append_getLast name.ne_nil).symm⟩
  have plain : isPlain last = true := name.plain last (by simp [shape])
  have unmarked : List.lookup last comparisonMarks = none := by
    rw [comparisonMarks, List.lookup_eq_none_iff]
    intro m hm
    simp only [List.mem_cons, List.not_mem_nil, or_false] at hm
    rcases hm with rfl | rfl | rfl | rfl | rfl <;> simpa using ne_of_isPlain plain rfl
  cases how with
  | exact => simp [comparison, Comparison.mark, shape, unmarked]
  | includes | startsWith | endsWith | substring | dashMatch =>
    simp [comparison, Comparison.mark, comparisonMarks, List.lookup_cons]

/-- Quotes are stripped off both ends, whether or not one is missing at the end. -/
theorem unquote_opened {v : List Char} (free : ∀ c ∈ v, isQuote c = false) {tail : List Char}
    (ends : tail = [] ∨ tail = ['"']) : unquote ('"' :: (v ++ tail)) = v := by
  have quoted : ∀ c ∈ tail, isQuote c = true := by
    rcases ends with rfl | rfl <;> simp [isQuote]
  have kept (u : List Char) (hu : ∀ c ∈ u, isQuote c = false) : u.dropWhile isQuote = u := by
    cases u with
    | nil => rfl
    | cons c u => rw [List.dropWhile_cons, hu c List.mem_cons_self]; rfl
  have opens : isQuote '"' = true := rfl
  rw [unquote, List.dropWhile_cons, if_pos opens]
  by_cases none : v = []
  · subst none
    rw [List.nil_append, List.dropWhile_eq_nil_iff.mpr quoted]
    rfl
  · obtain ⟨c, rest, rfl⟩ := List.exists_cons_of_ne_nil none
    have start : (c :: rest ++ tail).dropWhile isQuote = c :: rest ++ tail := by
      rw [List.cons_append, List.dropWhile_cons, free c List.mem_cons_self]
      rfl
    have back : ∀ d ∈ tail.reverse, isQuote d = true := fun d hd => quoted d (List.mem_reverse.mp hd)
    rw [start, List.reverse_append, List.dropWhile_append_of_pos back,
      kept _ fun d hd => free d (List.mem_reverse.mp hd), List.reverse_reverse]

theorem QuotedValue.isQuote_eq_false (v : QuotedValue) : ∀ c ∈ v.text, isQuote c = false := by
  intro c hc
  have free := v.free c hc
  simp only [List.mem_cons, List.not_mem_nil, or_false, not_or] at free
  simp [isQuote, free]

/-- The value is read as far as it goes, if nothing is trimmed off it. -/
theorem attributeTest?_opened {v : List Char} (free : ∀ c ∈ v, isQuote c = false)
    {tail : List Char} (ends : tail = [] ∨ tail = ['"'])
    (trimmed : Text.trim ('"' :: (v ++ tail)) = '"' :: (v ++ tail)) :
    attributeTest? (name.text ++ how.mark ++ '=' :: '"' :: (v ++ tail)) =
      some ⟨.ofList name.text, some (how, .ofList v)⟩ := by
  have absent : '=' ∉ name.text ++ how.mark := by
    rw [List.mem_append, not_or]
    exact ⟨name.not_mem rfl, how.not_mem_mark (by decide)⟩
  rw [attributeTest?, Text.cut?_first _ absent]
  dsimp only
  rw [comparison_mark, Text.trim_solid name.solid, trimmed, unquote_opened free ends]
  simp [name.ne_nil]

theorem attributeTest?_body (value : Option (Comparison × QuotedValue)) :
    attributeTest? (attributeBody name value) = some (attributeOf name value) := by
  cases value with
  | none =>
    rw [attributeBody, attributeTest?, Text.cut?_absent (name.not_mem rfl)]
    dsimp only
    rw [Text.trim_solid name.solid]
    simp [name.ne_nil, attributeOf]
  | some value =>
    obtain ⟨how, v⟩ := value
    have quote : Text.isBlank '"' = false := rfl
    have trimmed : Text.trim ('"' :: (v.text ++ ['"'])) = '"' :: (v.text ++ ['"']) := by
      rw [Text.trim, ← List.cons_append, Text.trimEnd_snoc_visible _ quote, Text.trimStart,
        List.cons_append, List.dropWhile_cons, quote]
      rfl
    exact attributeTest?_opened name how v.isQuote_eq_false (.inr rfl) trimmed

end Attributes

/-! ## Compounds -/

/-- A word that is no combinator. -/
def IsCompoundWord (w : List Char) : Prop := Text.Solid w ∧ combinator? w = none

/-- A condition behind the front of a compound. -/
inductive Condition where
  | id (name : Name)
  | cls (name : Name)
  | attr (name : Name) (value : Option (Comparison × QuotedValue))

namespace Condition

def text : Condition → List Char
  | id name => '#' :: name.text
  | cls name => '.' :: name.text
  | attr name value => '[' :: (attributeBody name value ++ [']'])

def ask (c : Compound) : Condition → Compound
  | id name => { c with id := some (.ofList name.text) }
  | cls name => { c with classes := c.classes.insert (.ofList name.text) }
  | attr name value => { c with attributes := c.attributes ++ [attributeOf name value] }

/-- The quoted values that are written. -/
def values : Condition → List QuotedValue
  | attr _ (some (_, v)) => [v]
  | attr _ none => []
  | id _ => []
  | cls _ => []

theorem visible_text {d : Condition}
    (visible : ∀ v ∈ d.values, ∀ c ∈ v.text, Text.isBlank c = false) :
    ∀ c ∈ d.text, Text.isBlank c = false := by
  cases d with
  | id name | cls name => exact List.forall_mem_cons.mpr ⟨rfl, name.solid.2⟩
  | attr name value =>
    have body : ∀ c ∈ attributeBody name value, Text.isBlank c = false := by
      cases value with
      | none => exact name.solid.2
      | some value =>
        obtain ⟨how, v⟩ := value
        have inside : ∀ c ∈ v.text, Text.isBlank c = false := visible v (List.mem_singleton_self v)
        simp only [attributeBody, List.forall_mem_append, List.forall_mem_cons]
        exact ⟨⟨name.solid.2, how.visible_mark⟩, rfl, rfl, inside, rfl, by simp⟩
    simp only [text, List.forall_mem_append, List.forall_mem_cons]
    exact ⟨rfl, body, rfl, by simp⟩

end Condition

/-- The text of conditions one behind the other. -/
def conditionsText (conditions : List Condition) : List Char := conditions.flatMap Condition.text

/-- What a compound starts with. -/
inductive Front where
  | none
  | star
  | tag (name : Name)

namespace Front

def text : Front → List Char
  | none => []
  | star => ['*']
  | tag name => name.text

/-- The tag that is asked for: what does not start with a letter is passed over. -/
def tag? : Front → Option String
  | none => .none
  | star => .none
  | tag name =>
    if name.text.head?.any Char.isAlpha then some (.ofList (Text.lower name.text)) else .none

end Front

section Compounds

theorem isMark_of_head?_conditionsText (conditions : List Condition) :
    ∀ c ∈ (conditionsText conditions).head?, isMark c = true := by
  intro c hc
  cases conditions with
  | nil => cases hc
  | cons d conditions => cases d <;> (obtain rfl := Option.some.inj hc; rfl)

/-- A name ends where the next condition starts. -/
theorem span_conditionsText {n : List Char} (free : ∀ c ∈ n, isMark c = false)
    (conditions : List Condition) :
    (n ++ conditionsText conditions).takeWhile (!isMark ·) = n ∧
      (n ++ conditionsText conditions).dropWhile (!isMark ·) = conditionsText conditions :=
  span_name free (isMark_of_head?_conditionsText conditions)

theorem Name.isMark_eq_false (n : Name) : ∀ c ∈ n.text, isMark c = false :=
  fun c hc => isMark_eq_false_of_isPlain (n.plain c hc)

theorem conditions_attribute {body : List Char} (open' : ']' ∉ body) (c : Compound)
    (rest : List Char) :
    c.conditions ('[' :: (body ++ ']' :: rest)) = (c.askAttribute body).conditions rest := by
  have passes : ∀ d ∈ body, decide (d ≠ ']') = true := by
    intro d hd
    rw [decide_eq_true_eq]
    rintro rfl
    exact open' hd
  rw [Compound.conditions, List.takeWhile_append_of_pos passes, List.dropWhile_append_of_pos passes]
  simp

/-- Conditions are asked for in their order. -/
theorem conditions_conditionsText {conditions : List Condition}
    (closed : ∀ d ∈ conditions, ∀ v ∈ d.values, ']' ∉ v.text) (c : Compound) (rest : List Condition) :
    c.conditions (conditionsText (conditions ++ rest)) =
      (conditions.foldl Condition.ask c).conditions (conditionsText rest) := by
  induction conditions generalizing c with
  | nil => rfl
  | cons d conditions ih =>
    obtain ⟨here, later⟩ := List.forall_mem_cons.mp closed
    rw [List.foldl_cons, ← ih later, conditionsText, List.cons_append, List.flatMap_cons,
      ← conditionsText]
    cases d with
    | id name =>
      obtain ⟨taken, left⟩ := span_conditionsText name.isMark_eq_false (conditions ++ rest)
      rw [Condition.text, List.cons_append, Compound.conditions, taken, left, Compound.askId,
        if_neg (by simpa using name.ne_nil)]
      rfl
    | cls name =>
      obtain ⟨taken, left⟩ := span_conditionsText name.isMark_eq_false (conditions ++ rest)
      rw [Condition.text, List.cons_append, Compound.conditions, taken, left, Compound.askClass,
        if_neg (by simpa using name.ne_nil)]
      rfl
    | attr name value =>
      have open' : ']' ∉ attributeBody name value := by
        cases value with
        | none => exact name.not_mem rfl
        | some value =>
          obtain ⟨how, v⟩ := value
          have free : ']' ∉ v.text := here v (List.mem_singleton_self v)
          have mark : ']' ∉ how.mark := how.not_mem_mark (by decide)
          simp [attributeBody, name.not_mem (d := ']') rfl, mark, free]
      rw [Condition.text, List.cons_append, List.append_assoc, List.singleton_append,
        conditions_attribute open', Compound.askAttribute, attributeTest?_body]
      rfl

theorem conditions_passed {s : List Char} (free : ∀ c ∈ s, isMark c = false) (c : Compound)
    (t : List Char) : c.conditions (s ++ t) = c.conditions t := by
  induction s with
  | nil => rfl
  | cons d s ih =>
    obtain ⟨here, later⟩ := List.forall_mem_cons.mp free
    have other : d ≠ '#' ∧ d ≠ '.' ∧ d ≠ '[' := by simpa [isMark, and_assoc] using here
    rw [List.cons_append, Compound.conditions, ih later]
    all_goals simp_all

theorem ofText_front (front : Front) (conditions : List Condition) :
    Compound.ofText (front.text ++ conditionsText conditions) =
      Compound.conditions { tag := front.tag? } (conditionsText conditions) := by
  cases front with
  | none =>
    rw [Front.text, List.nil_append, Compound.ofText]
    have starts := isMark_of_head?_conditionsText conditions
    cases shape : conditionsText conditions with
    | nil => rfl
    | cons mark rest =>
      have stops := starts mark (by rw [shape]; rfl)
      have noLetter : (Text.isLetter mark || decide (mark = '*')) = false := by
        simp only [isMark, Bool.or_eq_true, decide_eq_true_eq] at stops
        rcases stops with (rfl | rfl) | rfl <;> rfl
      rw [List.head?_cons, Option.any_some, noLetter]
      rfl
  | star =>
    have starred : isMark '*' = false := rfl
    obtain ⟨taken, left⟩ := span_conditionsText (List.forall_mem_singleton.mpr starred) conditions
    rw [Front.text, Compound.ofText, taken, left]
    rfl
  | tag name =>
    obtain ⟨taken, left⟩ := span_conditionsText name.isMark_eq_false conditions
    obtain ⟨c, rest, shape⟩ := List.exists_cons_of_ne_nil name.ne_nil
    have plain : isPlain c = true := name.plain c (by simp [shape])
    have noStar : c ≠ '*' := ne_of_isPlain plain rfl
    have starts : (name.text ++ conditionsText conditions).head?.any
        (fun c => Text.isLetter c || decide (c = '*')) = name.text.head?.any Char.isAlpha := by
      simp [shape, isLetter_of_isPlain plain, noStar]
    have notAny : name.text ≠ ['*'] := by simp [shape, noStar]
    rw [Front.text, Compound.ofText, starts, taken, left, conditions_passed name.isMark_eq_false]
    dsimp only
    rw [if_neg notAny, Front.tag?]
    split <;> rfl

/-- A compound without closing brackets in its values asks for what is written. -/
theorem ofText_written (front : Front) {conditions : List Condition}
    (closed : ∀ d ∈ conditions, ∀ v ∈ d.values, ']' ∉ v.text) :
    Compound.ofText (front.text ++ conditionsText conditions) =
      conditions.foldl Condition.ask { tag := front.tag? } := by
  have whole := conditions_conditionsText closed { tag := front.tag? } []
  rw [List.append_nil] at whole
  rw [ofText_front, whole, conditionsText, List.flatMap_nil, Compound.conditions]

/-! ### What is asked for -/

/-- The ids among conditions. -/
def idNames (conditions : List Condition) : List String :=
  conditions.filterMap fun
    | .id name => some (.ofList name.text)
    | .cls _ => none
    | .attr .. => none

/-- The classes among conditions. -/
def classNames (conditions : List Condition) : List String :=
  conditions.filterMap fun
    | .id _ => none
    | .cls name => some (.ofList name.text)
    | .attr .. => none

/-- The attributes among conditions. -/
def attributeTests (conditions : List Condition) : List AttributeTest :=
  conditions.filterMap fun
    | .id _ => none
    | .cls _ => none
    | .attr name value => some (attributeOf name value)

/-- The last id is asked for, every class once, and every attribute. -/
theorem foldl_ask (conditions : List Condition) (c : Compound) :
    conditions.foldl Condition.ask c =
      ⟨c.tag, (idNames conditions).getLast?.or c.id,
        (classNames conditions).foldl NameSet.insert c.classes,
        c.attributes ++ attributeTests conditions⟩ := by
  induction conditions generalizing c with
  | nil => simp [idNames, classNames, attributeTests]
  | cons d conditions ih =>
    rw [List.foldl_cons, ih]
    cases d with
    | id name =>
      cases last : (idNames conditions).getLast? <;>
        simp_all [Condition.ask, idNames, classNames, attributeTests, List.getLast?_cons]
    | cls name => simp [Condition.ask, idNames, classNames, attributeTests]
    | attr name value => simp [Condition.ask, idNames, classNames, attributeTests]

/-! ### Words -/

theorem combinator?_eq_none {w : List Char} {c : Char} (hc : c ∈ w) (other : c ∉ ['>', '+', '~']) :
    combinator? w = none := by
  simp only [List.mem_cons, List.not_mem_nil, or_false, not_or] at other
  rw [combinator?]
  all_goals
    rintro rfl
    simp_all

/-- The first character of a compound belongs to no combinator. -/
theorem exists_cons_written {front : Front} {conditions : List Condition}
    (some : front.text ++ conditionsText conditions ≠ []) :
    ∃ c rest, front.text ++ conditionsText conditions = c :: rest ∧ Text.isBlank c = false ∧
      c ∉ ['>', '+', '~'] := by
  have starts := isMark_of_head?_conditionsText conditions
  cases shape : conditionsText conditions with
  | nil =>
    rw [shape, List.append_nil] at some
    rw [List.append_nil]
    cases front with
    | none => exact absurd rfl some
    | star => exact ⟨'*', [], rfl, rfl, by decide⟩
    | tag name => exact name.exists_cons
  | cons mark rest =>
    have stops := starts mark (by rw [shape]; rfl)
    cases front with
    | none =>
      refine ⟨mark, rest, rfl, ?_⟩
      simp only [isMark, Bool.or_eq_true, decide_eq_true_eq] at stops
      rcases stops with (rfl | rfl) | rfl <;> decide
    | star => exact ⟨'*', _, rfl, rfl, by decide⟩
    | tag name =>
      obtain ⟨c, tail, first, visible⟩ := name.exists_cons
      exact ⟨c, tail ++ mark :: rest, by rw [Front.text, first]; rfl, visible⟩

/-- A compound without blanks in its values is one word. -/
theorem isCompoundWord_written {front : Front} {conditions : List Condition}
    (visible : ∀ d ∈ conditions, ∀ v ∈ d.values, ∀ c ∈ v.text, Text.isBlank c = false)
    (some : front.text ++ conditionsText conditions ≠ []) :
    IsCompoundWord (front.text ++ conditionsText conditions) := by
  refine ⟨⟨some, fun c hc => ?_⟩, ?_⟩
  · rcases List.mem_append.mp hc with hc | hc
    · cases front with
      | none => cases hc
      | star => rw [List.mem_singleton.mp hc]; rfl
      | tag name => exact name.solid.2 c hc
    · obtain ⟨d, hd, hc⟩ := List.mem_flatMap.mp hc
      exact Condition.visible_text (visible d hd) c hc
  · obtain ⟨c, rest, shape, -, other⟩ := exists_cons_written some
    rw [shape, combinator?_eq_none List.mem_cons_self other]

end Compounds

/-! ## Complex selectors -/

/-- What stands between two compounds. -/
def Combinator.gap : Combinator → List Char
  | .descendant => [' ']
  | .child => [' ', '>', ' ']
  | .adjacent => [' ', '+', ' ']
  | .sibling => [' ', '~', ' ']

/-- The words in the gap. -/
def Combinator.words : Combinator → List (List Char)
  | .descendant => []
  | .child => [['>']]
  | .adjacent => [['+']]
  | .sibling => [['~']]

/-- The text of a key compound and the compounds to its left, nearest first. -/
def selectorText (key : List Char) : List (Combinator × List Char) → List Char
  | [] => key
  | (how, near) :: left => selectorText near left ++ how.gap ++ key

section Complex

variable {key : List Char} {left : List (Combinator × List Char)}

theorem words_gap (how : Combinator) (s t : List Char) :
    Text.words (s ++ how.gap ++ t) = Text.words s ++ how.words ++ Text.words t := by
  have space : Text.isBlank ' ' = true := rfl
  have alone (c : Char) (visible : Text.isBlank c = false) :
      Text.words (s ++ [' ', c, ' '] ++ t) = Text.words s ++ [[c]] ++ Text.words t := by
    have single : Text.words [c] = [[c]] := Text.words_solid ⟨by simp, by simpa using visible⟩
    have parts : s ++ [' ', c, ' '] ++ t = s ++ ' ' :: ([c] ++ ' ' :: t) := by simp
    rw [parts, Text.words_append_blank _ _ space, Text.words_append_blank _ _ space, single,
      List.append_assoc]
  cases how with
  | descendant =>
    have parts : s ++ [' '] ++ t = s ++ ' ' :: t := by simp
    rw [Combinator.gap, parts, Text.words_append_blank _ _ space, Combinator.words, List.append_nil]
  | child => exact alone '>' rfl
  | adjacent => exact alone '+' rfl
  | sibling => exact alone '~' rfl

/-- Of the words, the compounds are those of the compounds' texts. -/
theorem compoundWords_selectorText (key : List Char) (left : List (Combinator × List Char)) :
    compoundWords (Text.words (selectorText key left)) =
      ((key :: left.map (·.2)).reverse).flatMap fun t => compoundWords (Text.words t) := by
  have both (a b : List (List Char)) : compoundWords (a ++ b) = compoundWords a ++ compoundWords b :=
    List.filter_append ..
  have none (how : Combinator) : compoundWords how.words = [] := by cases how <;> rfl
  induction left generalizing key with
  | nil => simp [selectorText]
  | cons l left ih =>
    obtain ⟨how, near⟩ := l
    rw [selectorText, words_gap, both, both, none, ih]
    simp

/-- The words of a gap say how the next compound is tied. -/
theorem foldl_word_gap (how : Combinator) (s : Complex) :
    (how.words.foldl Progress.word { selector := some s }).selector = some s ∧
      (how.words.foldl Progress.word { selector := some s }).waiting.getD .descendant = how := by
  cases how <;> exact ⟨rfl, rfl⟩

/-- Compounds of one word each are read from the outermost to the key. -/
theorem foldl_word_selectorText (one : ∀ t ∈ key :: left.map (·.2), IsCompoundWord t) :
    (Text.words (selectorText key left)).foldl Progress.word {} =
      { selector := some ⟨.ofText key, left.map fun l => (l.1, .ofText l.2)⟩ } := by
  have last (p : Progress) {w : List Char} (h : IsCompoundWord w) :
      (Text.words w).foldl Progress.word p = p.word w := by
    rw [Text.words_solid h.1]
    rfl
  induction left generalizing key with
  | nil =>
    obtain ⟨solid, other⟩ := one key List.mem_cons_self
    rw [selectorText, last _ ⟨solid, other⟩, Progress.word, other]
    rfl
  | cons l left ih =>
    obtain ⟨how, near⟩ := l
    obtain ⟨⟨solid, other⟩, rest⟩ := List.forall_mem_cons.mp one
    obtain ⟨read, waits⟩ := foldl_word_gap how ⟨.ofText near, left.map fun l => (l.1, .ofText l.2)⟩
    rw [selectorText, words_gap, List.foldl_append, List.foldl_append, ih rest,
      last _ ⟨solid, other⟩, Progress.word, other, read]
    dsimp only
    rw [waits]
    rfl

theorem ofText?_selectorText (one : ∀ t ∈ key :: left.map (·.2), IsCompoundWord t) :
    Complex.ofText? (.ofList (selectorText key left)) =
      some ⟨.ofText key, left.map fun l => (l.1, .ofText l.2)⟩ := by
  rw [Complex.ofText?, String.toList_ofList, foldl_word_selectorText one]

end Complex

end AuthoredStyle.Cascade
