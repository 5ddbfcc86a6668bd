import AuthoredStyle.Sheet.Reading
import AuthoredStyle.Proofs.Sheet.Passing
import AuthoredStyle.Proofs.Sheet.Uncommented
import AuthoredStyle.Proofs.Text.Trim

/-!
# What the inside of a block reads as

A text that belongs inside a block is judged by what it says there: the statements
it ends and the rules of the blocks it closes, under given parent selectors. The
judgement holds wherever the text starts on nothing but blanks, so texts can be
judged part by part and put together.
-/

namespace AuthoredStyle.Sheet

open Text (Blank)

theorem isOrdinary_of_isBlank {c : Char} (h : Text.isBlank c = true) : IsOrdinary c :=
  isOrdinary_of_kind (by decide) h

theorem passesOver_blank {w : List Char} (blank : Blank w) : PassesOver w :=
  passesOver_ordinary fun c hc => isOrdinary_of_isBlank (blank c hc)

theorem nestedRules_append (file : String) (parents : List (List Char)) (ps qs : List Piece) :
    nestedRules file parents (ps ++ qs) =
      nestedRules file parents ps ++ nestedRules file parents qs := by
  induction ps with
  | nil => rfl
  | cons p ps ih => rw [List.cons_append, nestedRules, nestedRules, ih, RuleSet.append_assoc]

theorem nestedRules_statement (file : String) (parents : List (List Char)) (ps : List Piece)
    (text : List Char) :
    nestedRules file parents (ps ++ [.statement text false]) = nestedRules file parents ps := by
  rw [nestedRules_append]
  exact RuleSet.append_empty _

theorem statements_append (ps qs : List Piece) :
    statements (ps ++ qs) = statements ps ++ statements qs :=
  List.filterMap_append

theorem statements_blank (ps : List Piece) {text : List Char} (blank : Blank text) :
    statements (ps ++ [.statement text false]) = statements ps := by
  simp [statements, Piece.statement?, Text.trim_eq_nil blank]

/-- The rules that statements make for selectors. -/
def rulesSaid (selectors said : List (List Char)) (file : String) : RuleSet :=
  let ds := declarations said
  if ds.isEmpty then ∅ else .join (selectors.map (ruleOf · ds file))

theorem ownRules_eq (selectors : List (List Char)) (body : List Piece) (file : String) :
    ownRules selectors body file = rulesSaid selectors (statements body) file := rfl

section Lists

/-- A selector gives one rule or none. -/
theorem ruleOf_cases (selector : List Char) (ds : Declarations) (file : String) :
    ruleOf selector ds file = ∅ ∨
      isGeneric (splitPseudo selector).1 = false ∧
        ((∃ element, ruleOf selector ds file =
            { pseudo := [⟨.ofList (splitPseudo selector).1, element, .ofList ds⟩] }) ∨
          ruleOf selector ds file =
            { hover := [⟨.ofList (splitPseudo selector).1, .ofList ds⟩] } ∨
          ruleOf selector ds file =
            { plain := [⟨.ofList (splitPseudo selector).1, .ofList (ds.map (·.1)), file⟩] }) := by
  unfold ruleOf
  dsimp only
  split
  · exact .inl rfl
  · rename_i kept
    obtain ⟨specific, -⟩ := not_or.mp (mt Bool.or_eq_true_iff.mpr kept)
    refine .inr ⟨by simpa using specific, ?_⟩
    split
    · rename_i element _
      exact .inl ⟨element, rfl⟩
    · split
      · exact .inr (.inl rfl)
      · exact .inr (.inr rfl)

/-- Appending keeps it, and it holds of no rules and of what any selector gives. -/
structure Spreads (file : String) (motive : RuleSet → Prop) : Prop where
  empty : motive ∅
  append : ∀ a b, motive a → motive b → motive (a ++ b)
  rule : ∀ selector said, declarations said ≠ [] →
    motive (ruleOf selector (declarations said) file)

namespace Spreads

variable {file : String} {motive : RuleSet → Prop} (h : Spreads file motive)
include h

theorem ownRules (selectors : List (List Char)) (body : List Piece) :
    motive (Sheet.ownRules selectors body file) := by
  rw [Sheet.ownRules]
  split
  · exact h.empty
  · rename_i some
    refine RuleSet.join_induction h.empty h.append fun r hr => ?_
    obtain ⟨selector, -, rfl⟩ := List.mem_map.mp hr
    exact h.rule selector _ (by simpa using some)

mutual

theorem styleRules (parents : List (List Char)) : (p : Piece) → motive (p.styleRules file parents)
  | .block lead body => by
    rw [Piece.styleRules]
    dsimp only
    split
    · exact h.empty
    · exact h.append _ _ (h.ownRules _ body)
        (nestedRules (nest parents (selectorList (Text.trim lead))) body)
  | .statement .. | .stray .. | .unclosed .. => h.empty

theorem nestedRules (parents : List (List Char)) :
    (ps : List Piece) → motive (Sheet.nestedRules file parents ps)
  | [] => h.empty
  | p :: ps => h.append _ _ (styleRules parents p) (nestedRules parents ps)

end

mutual

theorem pieceListedRules : (p : Piece) → motive (p.listedRules file)
  | .block lead body => by
    rw [Piece.listedRules]
    split
    · exact h.styleRules [] _
    · split
      · exact h.empty
      · exact listedRules body
  | .statement .. | .stray .. | .unclosed .. => h.empty

/-- It holds of the rules of a list. -/
theorem listedRules : (ps : List Piece) → motive (Sheet.listedRules file ps)
  | [] => h.empty
  | p :: ps => h.append _ _ (pieceListedRules p) (listedRules ps)

end

end Spreads

end Lists

section Judgement

variable {file : String} {parents : List (List Char)}

/-- Read on its own line inside a block, the text says these statements and
gives these rules. -/
def Reads (file : String) (parents : List (List Char)) (text : List Char)
    (said : List (List Char)) (rules : RuleSet) : Prop :=
  ∀ s : Scan, s.Idle → Blank s.segment →
    ∃ ps segment, s.run text = { s with done := ps.reverse ++ s.done, segment := segment } ∧
      Blank segment ∧ statements ps = said ∧ nestedRules file parents ps = rules

theorem reads_blank {text : List Char} (h : Blank text) : Reads file parents text [] ∅ := by
  intro s idle before
  have ordinary : ∀ c ∈ text, IsOrdinary c := fun c hc => isOrdinary_of_isBlank (h c hc)
  exact ⟨[], text.reverse ++ s.segment, Scan.run_ordinary idle.2 ordinary,
    h.reverse.append before, rfl, rfl⟩

theorem Reads.append {a b : List Char} {said said' : List (List Char)} {rules rules' : RuleSet}
    (ha : Reads file parents a said rules) (hb : Reads file parents b said' rules') :
    Reads file parents (a ++ b) (said ++ said') (rules ++ rules') := by
  intro s idle before
  obtain ⟨ps, mid, first, blank, states, gives⟩ := ha s idle before
  obtain ⟨qs, stop, second, blank', states', gives'⟩ :=
    hb { s with done := ps.reverse ++ s.done, segment := mid } idle blank
  refine ⟨ps ++ qs, stop, ?_, blank', ?_, ?_⟩
  · rw [Scan.run_append, first, second]
    simp
  · rw [statements_append, states, states']
  · rw [nestedRules_append, gives, gives']

theorem reads_statement {text : List Char} (passes : PassesOver text)
    (something : Text.trim text ≠ []) :
    Reads file parents (text ++ [';']) [Text.trim text] ∅ := by
  intro s idle before
  have trimmed : Text.trim (s.segment.reverse ++ text) = Text.trim text :=
    Text.trim_blank_append text before.reverse
  refine ⟨[.statement (s.segment.reverse ++ text) true], [], ?_, ?_, ?_, rfl⟩
  · have ends (t : Scan) (outside : t.Idle) : t.run [';'] = t.endStatement := by
      have now := Scan.step_bare ';' outside.2
      simpa [Scan.run, outside.1] using now
    rw [Scan.run_append, passes.run idle, ends]
    · simp [Scan.endStatement]
    · exact idle
  · exact Text.blank_nil
  · simp [statements, Piece.statement?, trimmed, something]

/-- A block is one piece, and what is inside it is read by itself. -/
theorem scan_block {lead inner : List Char} {inside : List (List Char)}
    {said : List (List Char)} {rules : RuleSet} (passes : PassesOver lead)
    (reads : Reads file inside inner said rules) {s : Scan} (idle : s.Idle) :
    ∃ body,
      s.run (lead ++ '{' :: (inner ++ ['}'])) =
        { s with done := .block (s.segment.reverse ++ lead) body :: s.done, segment := [] } ∧
      statements body = said ∧ nestedRules file inside body = rules := by
  let opened : Scan := { s with segment := lead.reverse ++ s.segment }
  have start : s.run lead = opened := passes.run idle
  have opens : opened.step '{' = opened.openBlock := by
    have now := Scan.step_bare '{' (s := opened) idle.2
    simpa using now
  obtain ⟨ps, stop, went, blank, states, gives⟩ :=
    reads opened.openBlock ⟨rfl, idle.2⟩ Text.blank_nil
  have onward (t : Scan) (text : List Char) : t.run ('{' :: text) = (t.step '{').run text := rfl
  have last (t : Scan) (outside : t.reading = .bare) : t.run ['}'] = t.closeBlock := by
    have now := Scan.step_bare '}' outside
    simpa [Scan.run] using now
  refine ⟨ps ++ [.statement stop.reverse false], ?_, ?_, ?_⟩
  · rw [Scan.run_append, start, onward, opens, Scan.run_append, went, last]
    · simp [Scan.closeBlock, Scan.openBlock, Scan.body, opened, idle.1]
    · exact idle.2
  · rw [statements_blank ps blank.reverse, states]
  · rw [nestedRules_statement, gives]

theorem reads_block {lead inner : List Char} {said : List (List Char)} {rules : RuleSet}
    (passes : PassesOver lead) (style : isAtRule (Text.trim lead) = false)
    (reads : Reads file (nest parents (selectorList (Text.trim lead))) inner said rules) :
    Reads file parents (lead ++ '{' :: (inner ++ ['}'])) []
      (rulesSaid (nest parents (selectorList (Text.trim lead))) said file ++ rules) := by
  intro s idle before
  obtain ⟨body, went, states, gives⟩ := scan_block passes reads idle
  refine ⟨[.block (s.segment.reverse ++ lead) body], [], went, ?_, rfl, ?_⟩
  · exact Text.blank_nil
  · have trimmed : Text.trim (s.segment.reverse ++ lead) = Text.trim lead :=
      Text.trim_blank_append lead before.reverse
    simp [nestedRules, Piece.styleRules, trimmed, style, ownRules_eq, states, gives]

/-- An at-rule inside a block is dropped, with all that is in it. -/
theorem reads_atRule {lead inner : List Char} {inside said : List (List Char)} {rules : RuleSet}
    (passes : PassesOver lead) (at' : isAtRule (Text.trim lead) = true)
    (reads : Reads file inside inner said rules) :
    Reads file parents (lead ++ '{' :: (inner ++ ['}'])) [] ∅ := by
  intro s idle before
  obtain ⟨body, went, -, -⟩ := scan_block passes reads idle
  refine ⟨[.block (s.segment.reverse ++ lead) body], [], went, ?_, rfl, ?_⟩
  · exact Text.blank_nil
  · have trimmed : Text.trim (s.segment.reverse ++ lead) = Text.trim lead :=
      Text.trim_blank_append lead before.reverse
    simp [nestedRules, Piece.styleRules, trimmed, at']

end Judgement

section Whole

theorem toLower_ne_at {c : Char} (h : c ≠ '@') : c.toLower ≠ '@' :=
  mt (Text.toLower_eq_iff (by decide)).mp h

/-- Lower case does not make an at-rule. -/
theorem isAtRule_lower {prelude : List Char} (style : isAtRule prelude = false) :
    isAtRule (Text.lower prelude) = false := by
  cases prelude with
  | nil => rfl
  | cons c prelude =>
    have other : c ≠ '@' := by simpa [isAtRule] using style
    simpa [isAtRule, Text.lower] using toLower_ne_at other

theorem dropLead?_lower {prelude : List Char} (lead : List Char)
    (style : isAtRule prelude = false) :
    Text.dropLead? ('@' :: lead) (Text.lower prelude) = none := by
  cases prelude with
  | nil => rfl
  | cons c prelude =>
    have other : c ≠ '@' := by simpa [isAtRule] using style
    exact Text.dropLead?_other _ _ (toLower_ne_at other).symm

theorem hasLead_lower {prelude : List Char} (lead : List Char)
    (style : isAtRule prelude = false) :
    Text.hasLead ('@' :: lead) (Text.lower prelude) = false := by
  cases prelude with
  | nil => rfl
  | cons c prelude =>
    have other : c ≠ '@' := by simpa [isAtRule] using style
    simp [Text.hasLead, Text.lower, List.isPrefixOf, (toLower_ne_at other).symm]

theorem isDroppedAtRule_style {prelude : List Char} (style : isAtRule prelude = false) :
    isDroppedAtRule prelude = false := by
  simp only [isDroppedAtRule, droppedAtRules, List.any_cons, List.any_nil, Bool.or_false,
    Bool.or_eq_false_iff]
  exact ⟨hasLead_lower _ style, hasLead_lower _ style, hasLead_lower _ style⟩

variable {file : String}

/-- No block of these is an at-rule's. -/
def AllStyle (ps : List Piece) : Prop :=
  ∀ p ∈ ps, ∀ prelude, p.prelude? = some prelude → isAtRule prelude = false

theorem AllStyle.listedRules_eq {ps : List Piece} (h : AllStyle ps) :
    listedRules file ps = nestedRules file [] ps := by
  induction ps with
  | nil => rfl
  | cons p ps ih =>
    have later := ih fun q hq => h q (List.mem_cons_of_mem p hq)
    have here : p.listedRules file = p.styleRules file [] := by
      cases p with
      | block lead body =>
        have style := h _ List.mem_cons_self _ rfl
        simp [Piece.listedRules, style]
      | statement | stray | unclosed => rfl
    rw [listedRules, nestedRules, here, later]

/-- A sheet of style blocks reads as the rules of its blocks. -/
theorem read_allStyle {text : String} (uncommented : OpensNoComment text.toList)
    (style : AllStyle (pieces text.toList)) :
    read text file = nestedRules file [] (pieces text.toList) := by
  have kept : ∀ p ∈ pieces text.toList, p.isCutOut = false := by
    intro p hp
    cases p with
    | block lead body =>
      have plain := style _ hp _ rfl
      have stays : leadsWith "@media" (Text.trim lead) = false := hasLead_lower _ plain
      simp [Piece.isCutOut, isDroppedAtRule_style plain, stays]
    | statement | stray | unclosed => rfl
  have whole : withoutCutOuts text.toList = text.toList := by
    have all : (pieces text.toList).filter (!·.isCutOut) = pieces text.toList :=
      List.filter_eq_self.mpr fun p hp => by simp [kept p hp]
    rw [withoutCutOuts, all, sources_pieces]
  have media : (pieces text.toList).flatMap Piece.mediaRules = [] := by
    refine List.flatMap_eq_nil_iff.mpr fun p hp => ?_
    cases p with
    | block lead body =>
      have plain := style _ hp _ rfl
      have dropped := isDroppedAtRule_style (isAtRule_lower plain)
      have none : Text.dropLead? "@media".toList (Text.lower (Text.trim lead)) = none :=
        dropLead?_lower _ plain
      simp only [Piece.mediaRules, dropped, none]
      rfl
    | statement | stray | unclosed => rfl
  rw [read, dropComments_eq_self uncommented, whole, media, style.listedRules_eq]
  rfl

/-- A sheet of one style block reads as the rules of the block. -/
theorem read_block {lead inner tail : List Char} {said : List (List Char)} {rules : RuleSet}
    (passes : PassesOver lead) (style : isAtRule (Text.trim lead) = false)
    (reads : Reads file (selectorList (Text.trim lead)) inner said rules) (ends : Blank tail)
    {text : String} (whole : text.toList = lead ++ '{' :: (inner ++ ['}']) ++ tail)
    (uncommented : OpensNoComment text.toList) :
    read text file = rulesSaid (selectorList (Text.trim lead)) said file ++ rules := by
  obtain ⟨body, went, states, gives⟩ := scan_block passes reads (s := {}) ⟨rfl, rfl⟩
  have cut : pieces text.toList = [.block lead body, .statement tail false] := by
    have ordinary : ∀ c ∈ tail, IsOrdinary c := fun c hc => isOrdinary_of_isBlank (ends c hc)
    rw [pieces, whole, Scan.run_append, went, Scan.run_ordinary rfl ordinary]
    simp [Scan.finish, Scan.cutOff, Scan.body]
  have all : AllStyle (pieces text.toList) := by
    intro p hp prelude under'
    rw [cut] at hp
    rcases List.mem_cons.mp hp with rfl | hp
    · cases under'
      exact style
    · rw [List.mem_singleton.mp hp] at under'
      cases under'
  rw [read_allStyle uncommented all, cut]
  simp [nestedRules, Piece.styleRules, style, nest, ownRules_eq, states, gives]

end Whole

end AuthoredStyle.Sheet
