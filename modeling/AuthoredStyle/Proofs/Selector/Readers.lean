import AuthoredStyle.Cascade.Match
import AuthoredStyle.Proofs.Selector.Escaped

/-!
# One selector, two readers

The cascade and the matcher of rules read selectors each in its own way. Where a compound is
a tag or a star, if either, and ids and classes in plain characters behind it, both ask for
the same tag, id and classes. Only the cascade knows attributes, and only the other reader
knows escapes; nothing is claimed about compounds with either.

Between compounds both cut at blanks. The cascade takes a lone `>` for a combinator, and the
other reader drops it.
-/

namespace AuthoredStyle.Selector

open Cascade (Combinator Complex Compound Progress combinator? isMark)

/-! ## Plain compounds -/

inductive Token where
  | id (name : List Char)
  | cls (name : List Char)

namespace Token

def name : Token → List Char
  | id name => name
  | cls name => name

def kind : Token → Kind
  | id _ => .id
  | cls _ => .cls

def mark : Token → Char
  | id _ => '#'
  | cls _ => '.'

def text (t : Token) : List Char := t.mark :: t.name

/-- A name in ASCII, and no class of the inspector's own. -/
structure IsRegular (t : Token) : Prop where
  ne_nil : t.name ≠ []
  plain : ∀ c ∈ t.name, isPlain c = true
  unmarked : t.kind = .cls → Page.isMarker (String.ofList t.name) = false

instance : DecidablePred IsRegular := fun t =>
  decidable_of_iff (t.name ≠ [] ∧ t.name.all isPlain = true ∧
      (t.kind = .cls → Page.isMarker (String.ofList t.name) = false))
    ⟨fun ⟨named, plain, unmarked⟩ => ⟨named, List.all_eq_true.mp plain, unmarked⟩,
      fun regular => ⟨regular.ne_nil, List.all_eq_true.mpr regular.plain, regular.unmarked⟩⟩

end Token

/-- What may stand in front of the ids and classes: nothing, a star or a tag. -/
def IsFront (front : List Char) : Prop :=
  front = [] ∨ front = ['*'] ∨ front.head?.any Char.isAlpha = true ∧ ∀ c ∈ front, isPlain c = true

/-- A front and any number of ids and classes behind it. -/
def IsCompound (w : List Char) : Prop :=
  ∃ (front : List Char) (tokens : List Token), w = front ++ tokens.flatMap Token.text ∧
    IsFront front ∧ ∀ t ∈ tokens, t.IsRegular

/-- What a part asks for, as the cascade keeps it. -/
def Part.toCompound (part : Part) : Compound := ⟨part.tag, part.id, part.classes, []⟩

section Readers

variable {front name : List Char} {tokens : List Token} {w : List Char}

theorem isMark_eq_false_of_isPlain {c : Char} (plain : isPlain c = true) : isMark c = false := by
  simp [isMark, ne_of_isPlain plain (d := '#') rfl, ne_of_isPlain plain (d := '.') rfl,
    ne_of_isPlain plain (d := '[') rfl]

theorem not_mem_nameMarks_of_isPlain {c : Char} (plain : isPlain c = true) : c ∉ nameMarks := by
  intro mark
  have apart : nameMarks.all (!isPlain ·) = true := by decide
  have other := List.all_eq_true.mp apart c mark
  simp [plain] at other

theorem IsFront.isMark (isFront : IsFront front) : ∀ c ∈ front, isMark c = false := by
  rcases isFront with rfl | rfl | ⟨-, plain⟩
  · simp
  · simp [Cascade.isMark]
  · exact fun c hc => isMark_eq_false_of_isPlain (plain c hc)

theorem IsFront.not_mem_nameMarks (isFront : IsFront front) : ∀ c ∈ front, c ∉ nameMarks := by
  rcases isFront with rfl | rfl | ⟨-, plain⟩
  · simp
  · simp [nameMarks]
  · exact fun c hc => not_mem_nameMarks_of_isPlain (plain c hc)

/-! ## The reader of the cascade -/

def Token.ask (c : Compound) : Token → Compound
  | id name => c.askId name
  | cls name => c.askClass name

/-- A name ends where a mark stands or the text ends. -/
theorem span_name (free : ∀ c ∈ name, isMark c = false) {rest : List Char}
    (stops : ∀ c ∈ rest.head?, isMark c = true) :
    (name ++ rest).takeWhile (!isMark ·) = name ∧ (name ++ rest).dropWhile (!isMark ·) = rest := by
  have passes : ∀ c ∈ name, (!isMark c) = true := fun c hc => by simp [free c hc]
  rw [List.takeWhile_append_of_pos passes, List.dropWhile_append_of_pos passes]
  cases rest with
  | nil => simp
  | cons c rest => simp [stops c rfl]

/-- A name ends where the next token starts. -/
theorem span_tokens (free : ∀ c ∈ name, isMark c = false) (tokens : List Token) :
    (name ++ tokens.flatMap Token.text).takeWhile (!isMark ·) = name ∧
      (name ++ tokens.flatMap Token.text).dropWhile (!isMark ·) = tokens.flatMap Token.text := by
  refine span_name free fun c hc => ?_
  cases tokens with
  | nil => cases hc
  | cons t tokens => cases t <;> (obtain rfl := Option.some.inj hc; rfl)

theorem conditions_tokens (regular : ∀ t ∈ tokens, t.IsRegular) (c : Compound) :
    c.conditions (tokens.flatMap Token.text) = tokens.foldl Token.ask c := by
  induction tokens generalizing c with
  | nil => rw [List.flatMap_nil, Compound.conditions, List.foldl_nil]
  | cons t tokens ih =>
    obtain ⟨here, later⟩ := List.forall_mem_cons.mp regular
    obtain ⟨taken, left⟩ := span_tokens (fun d hd => isMark_eq_false_of_isPlain (here.plain d hd))
      tokens
    rw [List.flatMap_cons, List.foldl_cons, ← ih later]
    cases t with
    | id name =>
      rw [Token.text, List.cons_append, Token.mark, Compound.conditions, taken, left]
      rfl
    | cls name =>
      rw [Token.text, List.cons_append, Token.mark, Compound.conditions, taken, left]
      rfl

/-- The tag that a front asks for. -/
def tagOf? (front : List Char) : Option String :=
  if front = [] ∨ front = ['*'] then none else some (String.ofList (Text.lower front))

theorem ofText_front (isFront : IsFront front) (regular : ∀ t ∈ tokens, t.IsRegular) :
    Compound.ofText (front ++ tokens.flatMap Token.text) =
      tokens.foldl Token.ask { tag := tagOf? front } := by
  rw [← conditions_tokens regular]
  obtain ⟨taken, left⟩ := span_tokens isFront.isMark tokens
  rcases isFront with rfl | rfl | ⟨letter, plain⟩
  · cases tokens with
    | nil => rfl
    | cons t tokens => cases t <;> rfl
  · rw [Compound.ofText, taken, left]
    rfl
  · obtain ⟨c, rest, rfl⟩ : ∃ c rest, front = c :: rest := by
      cases front with
      | nil => cases letter
      | cons c rest => exact ⟨c, rest, rfl⟩
    have alpha : c.isAlpha = true := by simpa using letter
    have noStar : c ≠ '*' := ne_of_isPlain (plain c List.mem_cons_self) rfl
    have starts : ((c :: rest ++ tokens.flatMap Token.text).head?.any
        fun c => Text.isLetter c || c = '*') = true := by
      simp [Text.isLetter_of_isAlpha alpha]
    rw [Compound.ofText, if_pos starts, taken, left]
    simp [tagOf?, noStar]

/-! ## The reader of parts -/

theorem names_tokens (kind : Kind) (free : ∀ c ∈ name, c ∉ nameMarks)
    (regular : ∀ t ∈ tokens, t.IsRegular) :
    names kind [] (name ++ tokens.flatMap Token.text) =
      (kind, name) :: tokens.map fun t => (t.kind, t.name) := by
  induction tokens generalizing kind name with
  | nil => rw [List.flatMap_nil, List.append_nil, names_unmarked free]; rfl
  | cons t tokens ih =>
    obtain ⟨here, later⟩ := List.forall_mem_cons.mp regular
    have onward := ih t.kind (fun c hc => not_mem_nameMarks_of_isPlain (here.plain c hc)) later
    rw [List.flatMap_cons, names_unmarked_append free, List.append_nil, List.map_cons, ← onward,
      Token.text, List.cons_append]
    cases t with
    | id n => rw [Token.mark, names, List.reverse_reverse]; rfl
    | cls n => rw [Token.mark, names, List.reverse_reverse]; rfl

theorem toCompound_ask (part : Part) (t : Token) :
    (part.ask (t.kind, t.name)).toCompound = t.ask part.toCompound := by
  cases t with
  | id name => cases name <;> rfl
  | cls name => cases name <;> rfl

theorem toCompound_foldl_ask (part : Part) (tokens : List Token) :
    ((tokens.map fun t => (t.kind, t.name)).foldl Part.ask part).toCompound =
      tokens.foldl Token.ask part.toCompound := by
  induction tokens generalizing part with
  | nil => rfl
  | cons t tokens ih => rw [List.map_cons, List.foldl_cons, List.foldl_cons, ih, toCompound_ask]

theorem ask_front (front : List Char) : Part.ask {} (.tag, front) = { tag := tagOf? front } := by
  by_cases empty : front = []
  · subst empty
    rfl
  · by_cases star : front = ['*'] <;> simp [Part.ask, tagOf?, empty, star]

/-- Both readers ask for the same. -/
theorem IsCompound.ofText_eq (isCompound : IsCompound w) :
    Compound.ofText w = (Part.ofText w).toCompound := by
  obtain ⟨front, tokens, rfl, isFront, regular⟩ := isCompound
  rw [ofText_front isFront regular, Part.ofText, names_tokens .tag isFront.not_mem_nameMarks regular,
    List.foldl_cons, toCompound_foldl_ask, ask_front]
  rfl

theorem IsCompound.unmarked (isCompound : IsCompound w) :
    ∀ c ∈ (Part.ofText w).classes, Page.isMarker c = false := by
  obtain ⟨front, tokens, rfl, isFront, regular⟩ := isCompound
  intro c hc
  rw [Part.ofText, names_tokens .tag isFront.not_mem_nameMarks regular] at hc
  rcases Part.mem_of_mem_classes_foldl_ask hc with none | asked
  · cases none
  · rcases List.mem_cons.mp asked with first | asked
    · cases first
    · obtain ⟨t, ht, same⟩ := List.mem_map.mp asked
      obtain ⟨kind, name⟩ := Prod.mk.inj same
      simpa [name] using (regular t ht).unmarked kind

end Readers

/-! ## Selectors -/

/-- Compounds between blanks; a child combinator stands between blanks as well. -/
structure IsCommonSelector (selector : String) : Prop where
  exists_compound : ∃ w ∈ Text.words selector.toList, w ≠ ['>']
  words : ∀ w ∈ Text.words selector.toList, w = ['>'] ∨ IsCompound w

/-- The words that are compounds to the cascade. -/
def compoundWords (ws : List (List Char)) : List (List Char) :=
  ws.filter fun w => (combinator? w).isNone

section Words

variable {ws : List (List Char)} {w : List Char}

theorem IsCompound.mem (isCompound : IsCompound w) {c : Char} (hc : c ∈ w) :
    isPlain c = true ∨ c ∈ ['*', '#', '.'] := by
  obtain ⟨front, tokens, rfl, isFront, regular⟩ := isCompound
  rcases List.mem_append.mp hc with hc | hc
  · rcases isFront with rfl | rfl | ⟨-, plain⟩
    · cases hc
    · exact .inr (by simp [List.mem_singleton.mp hc])
    · exact .inl (plain c hc)
  · obtain ⟨t, ht, hc⟩ := List.mem_flatMap.mp hc
    rcases List.mem_cons.mp hc with rfl | hc
    · exact .inr (by cases t <;> simp [Token.mark])
    · exact .inl ((regular t ht).plain c hc)

theorem IsCompound.combinator?_eq_none (isCompound : IsCompound w) : combinator? w = none := by
  have absent (c : Char) (special : isPlain c = false) (other : c ∉ ['*', '#', '.']) : w ≠ [c] := by
    rintro rfl
    rcases isCompound.mem List.mem_cons_self with plain | mark
    · rw [plain] at special
      cases special
    · exact other mark
  rw [combinator?]
  · exact absent '>' rfl (by decide)
  · exact absent '+' rfl (by decide)
  · exact absent '~' rfl (by decide)

theorem IsCompound.noChild (isCompound : IsCompound w) : ∀ c ∈ w, (c = '>' : Bool) = false := by
  intro c hc
  rcases isCompound.mem hc with plain | mark
  · simp [ne_of_isPlain plain (d := '>') rfl]
  · have apart : '>' ∉ ['*', '#', '.'] := by decide
    exact decide_eq_false (ne_of_mem_of_not_mem mark apart)

/-! ### What the cascade reads -/

/-- The compounds read so far, nearest first. -/
def compoundsOf (p : Progress) : List Compound :=
  match p.selector with
  | none => []
  | some s => s.key :: s.left.map (·.2)

theorem compoundsOf_word (p : Progress) (w : List Char) :
    compoundsOf (p.word w) =
      if (combinator? w).isNone then Compound.ofText w :: compoundsOf p else compoundsOf p := by
  obtain ⟨selector, waiting⟩ := p
  rw [Progress.word]
  cases combinator? w with
  | some c => rfl
  | none => cases selector <;> rfl

theorem compoundsOf_foldl (p : Progress) (ws : List (List Char)) :
    compoundsOf (ws.foldl Progress.word p) =
      ((compoundWords ws).map Compound.ofText).reverse ++ compoundsOf p := by
  induction ws generalizing p with
  | nil => rfl
  | cons w ws ih =>
    rw [List.foldl_cons, ih, compoundsOf_word, compoundWords, compoundWords, List.filter_cons]
    split <;> simp

/-- All combinators read so far are among some. -/
structure Ties (among : Combinator → Prop) (p : Progress) : Prop where
  waiting : ∀ how, p.waiting = some how → among how
  left : ∀ s, p.selector = some s → ∀ l ∈ s.left, among l.1

theorem Ties.word {among : Combinator → Prop} {p : Progress} (ties : Ties among p)
    (descendant : among .descendant) (known : ∀ how, combinator? w = some how → among how) :
    Ties among (p.word w) := by
  obtain ⟨selector, waiting⟩ := p
  rw [Progress.word]
  cases read : combinator? w with
  | some c =>
    exact ⟨fun how same => Option.some.inj same ▸ known c read, ties.left⟩
  | none =>
    cases selector with
    | none => exact ⟨ties.waiting, by simp⟩
    | some s =>
      refine ⟨by simp, ?_⟩
      rintro _ ⟨⟩ l hl
      rcases List.mem_cons.mp hl with rfl | hl
      · cases waiting with
        | none => exact descendant
        | some how => exact ties.waiting how rfl
      · exact ties.left s rfl l hl

theorem Ties.foldl {among : Combinator → Prop} {p : Progress} (ties : Ties among p)
    (descendant : among .descendant)
    (known : ∀ w ∈ ws, ∀ how, combinator? w = some how → among how) :
    Ties among (ws.foldl Progress.word p) := by
  induction ws generalizing p with
  | nil => exact ties
  | cons w ws ih =>
    obtain ⟨here, later⟩ := List.forall_mem_cons.mp known
    exact ih (ties.word descendant here) later

end Words

section Common

variable {selector : String} (common : IsCommonSelector selector)
include common

/-- The other reader finds the same compounds. -/
theorem IsCommonSelector.parts_eq :
    parts selector = (compoundWords (Text.words selector.toList)).map Part.ofText := by
  have cut : Text.runs endsPart selector.toList =
      (Text.words selector.toList).flatMap (Text.runs fun c => c = '>') :=
    Text.runs_or (fun c => c = '>') Text.isBlank selector.toList
  have each : ∀ w ∈ Text.words selector.toList, Text.runs (fun c => c = '>') w =
      (Option.guard (fun w => (combinator? w).isNone) w).toList := by
    intro w hw
    rcases common.words w hw with rfl | isCompound
    · rfl
    · have some : w ≠ [] := by simpa using (List.mem_filter.mp hw).2
      have kept := isCompound.combinator?_eq_none
      rw [Text.runs_of_none some isCompound.noChild, Option.guard, if_pos (by rw [kept]; rfl)]
      rfl
  rw [Selector.parts_eq, cut, List.flatMap_congr each, ← List.filterMap_eq_flatMap_toList,
    List.filterMap_eq_filter, compoundWords]

theorem IsCommonSelector.isCompound : ∀ w ∈ compoundWords (Text.words selector.toList),
    IsCompound w := by
  intro w hw
  obtain ⟨hw, compound⟩ := List.mem_filter.mp hw
  rcases common.words w hw with rfl | isCompound
  · cases compound
  · exact isCompound

theorem IsCommonSelector.unmarked :
    ∀ part ∈ parts selector, ∀ c ∈ part.classes, Page.isMarker c = false := by
  rw [common.parts_eq]
  intro part hp
  obtain ⟨w, hw, rfl⟩ := List.mem_map.mp hp
  exact (common.isCompound w hw).unmarked

theorem IsCommonSelector.ties (among : Combinator → Prop) (descendant : among .descendant)
    (child : ['>'] ∈ Text.words selector.toList → among .child) :
    Ties among ((Text.words selector.toList).foldl Progress.word {}) := by
  refine Ties.foldl ⟨by simp, by simp⟩ descendant fun w hw how read => ?_
  rcases common.words w hw with rfl | isCompound
  · cases read
    exact child hw
  · rw [isCompound.combinator?_eq_none] at read
    cases read

/-- The cascade's reading of such a selector: the parts of the other reader, nearest first,
tied as children and descendants, and as descendants only if no `>` is written. -/
theorem IsCommonSelector.exists_ofText? :
    ∃ (last : Part) (outer : List Part) (left : List (Combinator × Compound)),
      (parts selector).reverse = last :: outer ∧
        Complex.ofText? selector = some ⟨last.toCompound, left⟩ ∧
        left.map (·.2) = outer.map Part.toCompound ∧
        (∀ l ∈ left, l.1 = .child ∨ l.1 = .descendant) ∧
        ('>' ∉ selector.toList → ∀ l ∈ left, l.1 = .descendant) := by
  let ws := Text.words selector.toList
  have compounds : compoundsOf (ws.foldl Progress.word {}) =
      (parts selector).reverse.map Part.toCompound := by
    have same : (compoundWords ws).map Compound.ofText =
        (compoundWords ws).map (Part.toCompound ∘ Part.ofText) :=
      List.map_congr_left fun w hw => (common.isCompound w hw).ofText_eq
    rw [compoundsOf_foldl, same, common.parts_eq, List.map_reverse, List.map_map]
    exact List.append_nil _
  obtain ⟨w, hw, other⟩ := common.exists_compound
  have someParts : (parts selector).reverse ≠ [] := by
    have isCompound := (common.words w hw).resolve_left other
    have kept : w ∈ compoundWords ws :=
      List.mem_filter.mpr ⟨hw, by rw [isCompound.combinator?_eq_none]; rfl⟩
    rw [common.parts_eq, ← List.map_reverse, ne_eq, List.map_eq_nil_iff, List.reverse_eq_nil_iff]
    exact List.ne_nil_of_mem kept
  have vertical := common.ties (fun how => how = .child ∨ how = .descendant) (.inr rfl)
    fun _ => .inl rfl
  have loose (absent : '>' ∉ selector.toList) := common.ties (· = .descendant) rfl
    fun hw => absurd (Text.mem_of_mem_runs hw List.mem_cons_self) absent
  rw [compoundsOf] at compounds
  split at compounds
  · exact absurd (List.map_eq_nil_iff.mp compounds.symm) someParts
  · rename_i s read
    obtain ⟨last, outer, shape, key, left⟩ := List.map_eq_cons_iff.mp compounds.symm
    refine ⟨last, outer, s.left, shape, ?_, left.symm, vertical.left s read,
      fun absent => (loose absent).left s read⟩
    rw [Complex.ofText?, read, key]

end Common

end AuthoredStyle.Selector
