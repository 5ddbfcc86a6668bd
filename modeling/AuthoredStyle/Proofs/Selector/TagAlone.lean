import AuthoredStyle.Proofs.Selector.Satisfied
import AuthoredStyle.Proofs.Sheet.WellFormed
import AuthoredStyle.Proofs.Text.Escape

/-!
# Selectors that match by tag alone

Rules for bare elements are not kept: a kept selector has a dot or a hash somewhere. But the
matcher skips what is in brackets or behind a backslash, and takes two marks in a row for one,
so a selector may have dots and no part that asks for a class. Such a selector matches by tag
alone. Which ones these are can be told from the text: the ones without a name behind a mark
that is neither escaped nor in brackets.
-/

namespace AuthoredStyle

namespace Sheet

/-- The selectors of all rules, bucket by bucket. -/
def RuleSet.selectors (rules : RuleSet) : List String :=
  rules.plain.map (·.selector) ++ rules.pseudo.map (·.selector) ++
    rules.media.map (·.selector) ++ rules.hover.map (·.selector)

theorem RuleSet.WellFormed.isBase {files : String → Prop} {rules : RuleSet}
    (good : rules.WellFormed files) {selector : String} (kept : selector ∈ rules.selectors) :
    IsBase selector := by
  simp only [RuleSet.selectors, List.mem_append, List.mem_map] at kept
  rcases kept with ((⟨r, hr, rfl⟩ | ⟨r, hr, rfl⟩) | ⟨r, hr, rfl⟩) | ⟨r, hr, rfl⟩
  · exact (good.plain r hr).1
  · exact (good.pseudo r hr).1
  · exact (good.media r hr).1
  · exact (good.hover r hr).1

end Sheet

namespace Selector

open Page (Handle)
open Text (AllEscaped pending)

/-! ## Names behind marks -/

section Marks

/-- Behind this text a mark counts as one: it is not escaped, and no bracket is open. -/
def MarksCount (s : List Char) : Prop := pending s = false ∧ AllEscaped '[' s

theorem marksCount_nil : MarksCount [] := ⟨rfl, Text.allEscaped_nil '['⟩

theorem not_marksCount_backslash : ¬ MarksCount ['\\'] := fun counts => by cases counts.1

theorem marksCount_escaped_iff (c : Char) (s : List Char) :
    MarksCount ('\\' :: c :: s) ↔ MarksCount s :=
  and_congr_right fun _ => Text.allEscaped_escaped_iff (by decide) c

theorem marksCount_cons_iff {c : Char} (slash : c ≠ '\\') (s : List Char) :
    MarksCount (c :: s) ↔ c ≠ '[' ∧ MarksCount s := by
  rw [MarksCount, MarksCount, Text.pending_cons slash, Text.allEscaped_cons_iff slash]
  exact and_left_comm

/-- With a character that is no mark, or with any at all if it is escaped. -/
def StartsName (s : List Char) : Prop :=
  (∃ c t, s = c :: t ∧ c ∉ nameMarks) ∨ ∃ c t, s = '\\' :: c :: t

/-- A name stands behind a mark that counts. -/
def SaysName (s : List Char) : Prop :=
  ∃ before mark after, s = before ++ mark :: after ∧ (mark = '.' ∨ mark = '#') ∧
    MarksCount before ∧ StartsName after

theorem not_startsName_nil : ¬ StartsName [] := by
  rintro (⟨c, t, split, -⟩ | ⟨c, t, split⟩) <;> cases split

theorem not_startsName_backslash : ¬ StartsName ['\\'] := by
  rintro (⟨c, t, split, other⟩ | ⟨c, t, split⟩)
  · cases split
    exact other List.mem_cons_self
  · cases split

theorem not_startsName_mark {mark : Char} (h : mark ∈ ['#', '.', '[']) (s : List Char) :
    ¬ StartsName (mark :: s) := by
  rintro (⟨c, t, split, other⟩ | ⟨c, t, split⟩)
  · cases split
    exact other (List.mem_cons_of_mem _ h)
  · cases split
    exact absurd h (by decide)

theorem not_saysName_nil : ¬ SaysName [] := by
  rintro ⟨before, mark, after, split, -⟩
  simp at split

/-- Where the first character is no mark of a name, names are said behind it only. -/
theorem saysName_cons_iff {c : Char} {s : List Char} (dot : c ≠ '.') (hash : c ≠ '#') :
    SaysName (c :: s) ↔ ∃ before mark after, s = before ++ mark :: after ∧
      (mark = '.' ∨ mark = '#') ∧ MarksCount (c :: before) ∧ StartsName after := by
  constructor
  · rintro ⟨before, mark, after, split, known, counts, starts⟩
    cases before with
    | nil =>
      obtain ⟨rfl, -⟩ := List.cons_eq_cons.mp split
      exact absurd known (by simp [dot, hash])
    | cons d before =>
      obtain ⟨rfl, behind⟩ := List.cons_eq_cons.mp split
      exact ⟨before, mark, after, behind, known, counts, starts⟩
  · rintro ⟨before, mark, after, rfl, known, counts, starts⟩
    exact ⟨c :: before, mark, after, rfl, known, counts, starts⟩

theorem not_saysName_bracket (s : List Char) : ¬ SaysName ('[' :: s) := by
  rw [saysName_cons_iff (by decide) (by decide)]
  rintro ⟨before, mark, after, -, -, counts, -⟩
  exact ((marksCount_cons_iff (by decide) before).mp counts).1 rfl

theorem not_saysName_backslash : ¬ SaysName ['\\'] := by
  rw [saysName_cons_iff (by decide) (by decide)]
  rintro ⟨before, mark, after, split, -⟩
  simp at split

theorem saysName_escaped (c : Char) (s : List Char) :
    SaysName ('\\' :: c :: s) ↔ SaysName s := by
  rw [saysName_cons_iff (by decide) (by decide)]
  constructor
  · rintro ⟨before, mark, after, split, known, counts, starts⟩
    cases before with
    | nil => exact absurd counts not_marksCount_backslash
    | cons d before =>
      obtain ⟨rfl, behind⟩ := List.cons_eq_cons.mp split
      exact ⟨before, mark, after, behind, known, (marksCount_escaped_iff _ _).mp counts, starts⟩
  · rintro ⟨before, mark, after, rfl, known, counts, starts⟩
    exact ⟨c :: before, mark, after, rfl, known, (marksCount_escaped_iff _ _).mpr counts, starts⟩

theorem saysName_mark {mark : Char} (known : mark = '.' ∨ mark = '#') (s : List Char) :
    SaysName (mark :: s) ↔ StartsName s ∨ SaysName s := by
  have slash : mark ≠ '\\' := by rcases known with rfl | rfl <;> decide
  have bracket : mark ≠ '[' := by rcases known with rfl | rfl <;> decide
  constructor
  · rintro ⟨before, other, after, split, known, counts, starts⟩
    cases before with
    | nil =>
      obtain ⟨-, rfl⟩ := List.cons_eq_cons.mp split
      exact .inl starts
    | cons d before =>
      obtain ⟨rfl, behind⟩ := List.cons_eq_cons.mp split
      have counts := ((marksCount_cons_iff slash before).mp counts).2
      exact .inr ⟨before, other, after, behind, known, counts, starts⟩
  · rintro (starts | ⟨before, other, after, rfl, known, counts, starts⟩)
    · exact ⟨[], mark, s, rfl, known, marksCount_nil, starts⟩
    · exact ⟨mark :: before, other, after, rfl, known,
        (marksCount_cons_iff slash before).mpr ⟨bracket, counts⟩, starts⟩

theorem saysName_other {c : Char} (other : c ∉ nameMarks) (s : List Char) :
    SaysName (c :: s) ↔ SaysName s := by
  simp only [nameMarks, List.mem_cons, List.not_mem_nil, or_false, not_or] at other
  obtain ⟨slash, hash, dot, bracket⟩ := other
  have counts (before : List Char) : MarksCount (c :: before) ↔ MarksCount before := by
    rw [marksCount_cons_iff slash, and_iff_right bracket]
  simp only [saysName_cons_iff dot hash, counts]
  rfl

/-- Names other than tags come from marks, and a name that has begun goes on. -/
theorem exists_mem_names_iff (kind : Kind) (seen s : List Char) :
    (∃ n ∈ names kind seen s, n.1 ≠ .tag ∧ n.2 ≠ []) ↔
      kind ≠ .tag ∧ (seen ≠ [] ∨ StartsName s) ∨ SaysName s := by
  fun_induction names kind seen s with
  | case1 kind seen => simp [not_startsName_nil, not_saysName_nil]
  | case2 kind seen => simp [not_startsName_backslash, not_saysName_backslash]
  | case3 kind seen c s ih =>
    have starts : StartsName ('\\' :: c :: s) := .inr ⟨c, s, rfl⟩
    simp [ih, starts, saysName_escaped]
  | case4 kind seen s ih =>
    simp [ih, not_startsName_mark (by decide : '#' ∈ ['#', '.', '[']), saysName_mark (.inr rfl)]
  | case5 kind seen s ih =>
    simp [ih, not_startsName_mark (by decide : '.' ∈ ['#', '.', '[']), saysName_mark (.inl rfl)]
  | case6 kind seen s =>
    simp [not_startsName_mark (by decide : '[' ∈ ['#', '.', '[']), not_saysName_bracket]
  | case7 kind seen c s last slash hash dot bracket ih =>
    have noSlash : c ≠ '\\' := Text.ne_backslash last slash
    have other : c ∉ nameMarks := by simpa [nameMarks, noSlash] using ⟨hash, dot, bracket⟩
    have starts : StartsName (c :: s) := .inl ⟨c, s, rfl, other⟩
    simp [ih, starts, saysName_other other]

end Marks

/-! ## Parts that ask for more than a tag -/

section Asking

/-- Asks for an id or for classes. -/
def Part.AsksName (part : Part) : Prop := part.id ≠ none ∨ part.classes ≠ ∅

instance (part : Part) : Decidable part.AsksName := inferInstanceAs (Decidable (_ ∨ _))

theorem insert_ne_empty (s : NameSet) (name : String) : s.insert name ≠ ∅ := by
  intro none
  have mem : name ∈ s.insert name := NameSet.mem_insert.mpr (.inl rfl)
  rw [none] at mem
  exact NameSet.not_mem_empty name mem

theorem Part.asksName_ask (part : Part) (n : Kind × List Char) :
    (part.ask n).AsksName ↔ part.AsksName ∨ n.1 ≠ .tag ∧ n.2 ≠ [] := by
  obtain ⟨kind, name⟩ := n
  by_cases said : name = []
  · simp [ask, said]
  · cases kind with
    | tag =>
      simp only [ask, said, List.isEmpty_iff, if_false]
      split <;> simp [AsksName]
    | id | cls => simp [ask, AsksName, said, insert_ne_empty]

theorem Part.asksName_foldl_ask (ns : List (Kind × List Char)) (part : Part) :
    (ns.foldl ask part).AsksName ↔ part.AsksName ∨ ∃ n ∈ ns, n.1 ≠ .tag ∧ n.2 ≠ [] := by
  induction ns generalizing part with
  | nil => simp
  | cons n ns ih => rw [List.foldl_cons, ih, asksName_ask, List.exists_mem_cons_iff, or_assoc]

theorem Part.asksName_ofText_iff (s : List Char) : (ofText s).AsksName ↔ SaysName s := by
  have bare : ¬ ({} : Part).AsksName := by decide
  rw [ofText, asksName_foldl_ask, exists_mem_names_iff]
  simp [bare]

/-- Some part's text has a name behind a mark that counts. -/
def IsTold (selector : String) : Prop :=
  ∃ w ∈ Text.runs endsPart selector.toList, SaysName w

theorem exists_asksName_iff (selector : String) :
    (∃ part ∈ parts selector, part.AsksName) ↔ IsTold selector := by
  simp [parts_eq, IsTold, Part.asksName_ofText_iff]

end Asking

/-! ## Pages without ids and classes -/

section Bare

/-- No element has an id or a class, other than the inspector's own. -/
def Bare (p : Page) : Prop := ∀ h, p.id? h = none ∧ p.classes h = []

def MatchesByTagAlone (selector : String) : Prop :=
  ∃ s : Page.Snapshot, let p := Page.ofSnapshot s
    Bare p ∧ ∃ h, selects selector p h = true

variable {p : Page} {part : Part}

theorem holdsOf_bare_iff (bare : Bare p) (h : Handle) :
    part.holdsOf p h = true ↔ ¬ part.AsksName ∧
      part.tag.all (fun t => Text.lower (p.tag h).toList = Text.lower t.toList) = true := by
  obtain ⟨noId, noClass⟩ := bare h
  have classes : part.classes.toList.all (p.classes h).contains = true ↔ part.classes = ∅ := by
    rw [noClass]
    constructor
    · intro all
      ext c
      refine iff_of_false (fun hc => ?_) (NameSet.not_mem_empty c)
      exact absurd (List.all_eq_true.mp all c hc) (by simp)
    · rintro e
      rw [e]
      rfl
  have id : part.id.all (fun i => p.id? h = some i) = true ↔ part.id = none := by
    rw [noId]
    cases part.id <;> simp
  rw [Part.holdsOf, Bool.and_eq_true, Bool.and_eq_true, classes, id, Part.AsksName]
  tauto

section PartPage

theorem Part.satisfiable_of_bare {part : Part} (bare : ¬ part.AsksName) : part.Satisfiable := by
  intro c hc
  rw [AsksName, not_or, not_not, not_not] at bare
  rw [bare.2] at hc
  exact absurd hc (NameSet.not_mem_empty c)

/-- For parts that ask for tags only there is a page with tags only. -/
theorem bare_partPage {outermost : Part} {inner : List Part}
    (bare : ∀ part ∈ outermost :: inner, ¬ part.AsksName) :
    Bare (.ofSnapshot (partPage outermost inner)) := by
  intro k
  obtain ⟨children, found⟩ := element_partPage outermost inner k
  rw [Page.id?, Page.classes, Page.classList, found]
  cases at' : (outermost :: inner)[k]? with
  | none => exact ⟨rfl, rfl⟩
  | some part =>
    have silent := bare part (List.mem_of_getElem? at')
    rw [Part.AsksName, not_or, not_not, not_not] at silent
    simp only [Option.map_some, Option.bind_some, Option.getD_some, silent.1, silent.2]
    exact ⟨trivial, rfl⟩

end PartPage

/-- A selector needs ids and classes on a page exactly if one of its parts asks for them. -/
theorem matchesByTagAlone_iff {selector : String} (some : parts selector ≠ []) :
    MatchesByTagAlone selector ↔ ∀ part ∈ parts selector, ¬ part.AsksName := by
  constructor
  · rintro ⟨s, bare, h, selected⟩ part hp
    obtain ⟨a, here⟩ := exists_holdsOf_of_selects selected hp
    exact ((holdsOf_bare_iff bare a).mp here).1
  · intro bare
    obtain ⟨outermost, inner, read⟩ := List.exists_cons_of_ne_nil some
    rw [read] at bare
    refine ⟨_, bare_partPage bare, inner.length, ?_⟩
    rw [selects, read]
    exact holds_partPage fun part hp => Part.satisfiable_of_bare (bare part hp)

end Bare

/-! ## Kept selectors -/

section Kept

theorem parts_ne_nil {selector : String} (base : Sheet.IsBase selector) :
    parts selector ≠ [] := by
  obtain ⟨c, hc, other⟩ : ∃ c ∈ selector.toList, endsPart c = false := by
    rcases base.named with dot | hash
    · exact ⟨'.', dot, by decide⟩
    · exact ⟨'#', hash, by decide⟩
  obtain ⟨f, run, -⟩ := Text.exists_mem_runs other hc
  rw [parts_eq]
  exact List.ne_nil_of_mem (List.mem_map_of_mem run)

/-- A kept selector has a dot or a hash, but it asks for an id or a class only if it says a
name that counts. If not, it matches by tag alone. -/
theorem kept_selector_told_iff (text file : String) {selector : String}
    (kept : selector ∈ (Sheet.read text file).selectors) :
    Sheet.NamesClassOrId selector.toList ∧
      ((∃ part ∈ parts selector, part.AsksName) ↔ IsTold selector) ∧
        (MatchesByTagAlone selector ↔ ¬ IsTold selector) := by
  have base := (Sheet.wellFormed_read text file).isBase kept
  have told := exists_asksName_iff selector
  refine ⟨base.named, told, ?_⟩
  rw [matchesByTagAlone_iff (parts_ne_nil base), ← told]
  simp

/-- Links to a kind of file, and a link of a class. -/
def linkSheet : String := "a[href$=\".pdf\"] \x7b color: red \x7d a.pdf \x7b color: blue \x7d"

theorem kept_selector_told_iff_of_links :
    MatchesByTagAlone "a[href$=\".pdf\"]" ∧ ¬ MatchesByTagAlone "a.pdf" := by
  have untold : ¬ IsTold "a[href$=\".pdf\"]" := by
    rw [← exists_asksName_iff]
    decide +kernel
  have told : IsTold "a.pdf" := by
    rw [← exists_asksName_iff]
    decide +kernel
  exact ⟨(kept_selector_told_iff linkSheet "" (by decide +kernel)).2.2.mpr untold,
    fun alone => (kept_selector_told_iff linkSheet "" (by decide +kernel)).2.2.mp alone told⟩

/-- A rule for links is kept, for all that its only dot is in an attribute's value. -/
theorem link_rule_asks_for_tag :
    ¬ ∀ text file, ∀ selector ∈ (Sheet.read text file).selectors,
      ∃ part ∈ parts selector, part.AsksName := by
  intro always
  have kept : "a[href$=\".pdf\"]" ∈ (Sheet.read linkSheet "").selectors := by decide +kernel
  have silent : ¬ ∃ part ∈ parts "a[href$=\".pdf\"]", part.AsksName := by decide +kernel
  exact silent (always _ _ _ kept)

end Kept

end Selector

end AuthoredStyle
