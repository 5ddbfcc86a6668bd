import AuthoredStyle.Proofs.Scss.Declaration
import AuthoredStyle.Proofs.Sheet.Escaped

/-!
# Scanning an escaped name

Outside strings the scan of a sheet does not look at backslashes. It keeps an escaped name
whole unless a quote, a brace or a semicolon outside parentheses stands in it. Where it
breaks, the text in front ends in a backslash. Such a text declares nothing, since no
property has a backslash in its name, and it starts no at-rule. So nothing comes of a
broken name but the last block of the sheet, if that is reached at all, and its selector
has lost its dot.

The text behind the name is fixed: one block with one declaration.
-/

namespace AuthoredStyle.Sheet

open Selector (escape escapeChar isPlain Writes Finds)
open Text (Solid)

/-! ## Pieces that nothing comes of -/

/-- No rule and no declaration, outside blocks or inside. -/
structure Piece.Inert (p : Piece) : Prop where
  rules : ∀ file parents, p.styleRules file parents = ∅
  style : ∀ prelude, p.prelude? = some prelude → isAtRule prelude = false
  silent : ∀ said, p.statement? = some said → declaration? said = none

def AllInert (ps : List Piece) : Prop := ∀ p ∈ ps, p.Inert

section Inert

variable {ps qs : List Piece} {p : Piece} {text lead : List Char}

theorem allInert_nil : AllInert [] := fun _ hp => absurd hp List.not_mem_nil

theorem AllInert.cons (first : p.Inert) (h : AllInert ps) : AllInert (p :: ps) :=
  List.forall_mem_cons.mpr ⟨first, h⟩

theorem AllInert.append (h : AllInert ps) (h' : AllInert qs) : AllInert (ps ++ qs) :=
  List.forall_mem_append.mpr ⟨h, h'⟩

theorem AllInert.reverse (h : AllInert ps) : AllInert ps.reverse :=
  fun p hp => h p (List.mem_reverse.mp hp)

theorem AllInert.nestedRules_eq (h : AllInert ps) (file : String) (parents : List (List Char)) :
    nestedRules file parents ps = ∅ := by
  induction ps with
  | nil => rfl
  | cons p ps ih =>
    obtain ⟨first, later⟩ := List.forall_mem_cons.mp h
    rw [nestedRules, first.rules, ih later]
    rfl

theorem AllInert.allStyle (h : AllInert ps) : AllStyle ps := fun p hp => (h p hp).style

theorem AllStyle.snoc (h : AllStyle ps)
    (style : ∀ prelude, p.prelude? = some prelude → isAtRule prelude = false) :
    AllStyle (ps ++ [p]) :=
  List.forall_mem_append.mpr ⟨h, List.forall_mem_singleton.mpr style⟩

theorem AllInert.declarations_eq (h : AllInert ps) : declarations (statements ps) = [] := by
  have none : (statements ps).filterMap declaration? = [] := by
    refine List.filterMap_eq_nil_iff.mpr fun said hs => ?_
    obtain ⟨p, hp, stated⟩ := List.mem_filterMap.mp hs
    exact (h p hp).silent said stated
  rw [declarations, none]
  rfl

theorem inert_statement {ended : Bool} (silent : declaration? (Text.trim text) = none) :
    (Piece.statement text ended).Inert where
  rules := fun _ _ => rfl
  style := fun _ none => by cases none
  silent := by
    intro said stated
    simp only [Piece.statement?] at stated
    split at stated
    · cases stated
    · cases stated
      exact silent

theorem inert_stray : (Piece.stray text).Inert :=
  ⟨fun _ _ => rfl, fun _ none => (by cases none), fun _ none => (by cases none)⟩

theorem inert_unclosed : (Piece.unclosed lead ps).Inert :=
  ⟨fun _ _ => rfl, fun _ none => (by cases none), fun _ none => (by cases none)⟩

/-- A block is inert if all in it is: without a declaration it makes no rule. -/
theorem inert_block (style : isAtRule (Text.trim lead) = false) (h : AllInert ps) :
    (Piece.block lead ps).Inert where
  rules := by
    intro file parents
    rw [Piece.styleRules]
    simp only [style, Bool.false_eq_true, if_false]
    rw [ownRules_eq, rulesSaid, h.declarations_eq, h.nestedRules_eq]
    rfl
  style := by
    intro prelude here
    cases here
    exact style
  silent := fun _ none => by cases none

end Inert

/-! ## Texts that an escaped name is cut to -/

section Cut

theorem trim_visible {f : List Char} (visible : ∀ c ∈ f, Text.isBlank c = false) :
    Text.trim f = f := by
  by_cases none : f = []
  · rw [none]
    rfl
  · exact Text.trim_solid ⟨none, visible⟩

theorem visible_lead {lead : List Char} (dot : lead = [] ∨ lead = ['.']) :
    ∀ c ∈ lead, Text.isBlank c = false := by
  rcases dot with rfl | rfl
  · exact fun _ hc => absurd hc List.not_mem_nil
  · exact List.forall_mem_singleton.mpr (by decide)

/-- In front of a mark, behind the dot or behind an earlier mark. -/
def IsCut (text : List Char) : Prop :=
  ∃ lead name, (lead = [] ∨ lead = ['.']) ∧ (∀ c ∈ name, Text.isBlank c = false) ∧
    text = lead ++ escape name ++ ['\\']

theorem head_written {lead name rest : List Char} (dot : lead = [] ∨ lead = ['.'])
    (other : rest.head? ≠ some '@') : (lead ++ escape name ++ rest).head? ≠ some '@' := by
  rcases dot with rfl | rfl
  · cases written : escape name with
    | nil => exact other
    | cons c _ =>
      have first : (escape name).head? ≠ some '@' :=
        Selector.head?_escape_ne (by decide) (by decide)
      simpa [written] using first
  · simp

theorem not_isImportant_of_slash {name : String} (slash : '\\' ∈ name.toList) :
    Property.isImportant name = false := by
  cases known : Property.isImportant name with
  | false => rfl
  | true => exact absurd slash ((Property.isPathWord_of_isImportant known).not_mem (by decide))

variable {text : List Char}

theorem IsCut.solid (cut : IsCut text) : Solid text := by
  obtain ⟨lead, name, dot, visible, rfl⟩ := cut
  have inside : ∀ c ∈ lead ++ escape name, Text.isBlank c = false :=
    List.forall_mem_append.mpr ⟨visible_lead dot, Selector.visible_escape visible⟩
  exact ⟨by simp, List.forall_mem_append.mpr
    ⟨inside, List.forall_mem_singleton.mpr (by decide)⟩⟩

theorem IsCut.head_ne_at (cut : IsCut text) : text.head? ≠ some '@' := by
  obtain ⟨lead, name, dot, -, rfl⟩ := cut
  exact head_written dot (by decide)

theorem IsCut.style (cut : IsCut text) : isAtRule (Text.trim text) = false := by
  rw [Text.trim_solid cut.solid]
  exact decide_eq_false cut.head_ne_at

/-- A colon in it has a backslash in front. -/
theorem IsCut.slash_mem (cut : IsCut text) {before after : List Char}
    (split : text = before ++ ':' :: after) : '\\' ∈ before := by
  obtain ⟨lead, name, rfl | rfl, -, rfl⟩ := cut
  · obtain ⟨x, y, -, rfl, -⟩ :=
      Selector.exists_of_escape_append (by decide) (by decide) split
    simp
  · cases before with
    | nil => cases split
    | cons d before =>
      obtain ⟨-, later⟩ := List.cons_eq_cons.mp split
      obtain ⟨x, y, -, rfl, -⟩ :=
        Selector.exists_of_escape_append (by decide) (by decide) later
      simp

/-- So what stands in front of one is the name of no property. -/
theorem IsCut.silent (cut : IsCut text) : declaration? (Text.trim text) = none := by
  have solid := cut.solid
  obtain ⟨c, rest, start, -⟩ := solid.exists_cons
  have noCall : Text.dropLead? fontSizeCall text = none := by
    have other : '@' ≠ c := by
      rintro rfl
      exact cut.head_ne_at (by rw [start]; rfl)
    rw [start]
    exact Text.dropLead?_other _ _ other
  rw [declaration?, written?, Text.trim_solid solid, Text.trim_solid solid, noCall]
  cases colon : Text.cut? [':'] text with
  | none => rfl
  | some parts =>
    obtain ⟨before, after⟩ := parts
    have split : text = before ++ ':' :: after := by
      simpa using Text.eq_of_cut? colon
    have slash := cut.slash_mem split
    have visible : Solid before :=
      ⟨List.ne_nil_of_mem slash, fun d hd => solid.2 d (by simp [split, hd])⟩
    have lowered : '\\' ∈ (String.ofList (Text.lower (Text.trim before))).toList := by
      rw [String.toList_ofList, Text.trim_solid visible]
      exact List.mem_map.mpr ⟨'\\', slash, rfl⟩
    simp [not_isImportant_of_slash lowered]

end Cut

/-! ## Scanning an escaped name -/

/-- Semicolons outside parentheses end a statement. -/
def SemicolonsInside : Nat → List Char → Bool := OnlyInside ['('] [')'] ';'

/-- Nothing in the name is cut at, and no string opens in it. -/
def Unbroken (parens : Nat) (name : List Char) : Prop :=
  (∀ c ∈ name, c ∉ ['"', '\'', '{', '}']) ∧ SemicolonsInside parens name = true

structure Frame.Inert (f : Frame) : Prop where
  before : AllInert f.before
  style : isAtRule (Text.trim f.lead) = false

namespace Scan

/-- Nothing comes of what has been cut so far. -/
structure Inert (s : Scan) : Prop where
  done : AllInert s.done
  frames : ∀ f ∈ s.frames, f.Inert

/-- Outside strings, and all of the segment is this lead and this name. -/
structure Within (s : Scan) (lead name : List Char) : Prop where
  bare : s.reading = .bare
  visible : ∀ c ∈ name, Text.isBlank c = false
  segment : s.segment.reverse = lead ++ escape name

/-- In a string that an escaped quote has opened. -/
def InString (s : Scan) : Prop := ∃ mark, (mark = '"' ∨ mark = '\'') ∧ s.reading = .quoted mark

/-- Cut at least once, or in a string. -/
def Broken (s : Scan) : Prop := s.Inert ∧ (s.InString ∨ ∃ name, s.Within [] name)

section Steps

variable {s : Scan} {lead name : List Char} {c : Char}

theorem Inert.endStatement (inert : s.Inert) (cut : IsCut s.segment.reverse) :
    s.endStatement.Inert :=
  ⟨.cons (inert_statement cut.silent) inert.done, inert.frames⟩

theorem Inert.openBlock (inert : s.Inert) (cut : IsCut s.segment.reverse) : s.openBlock.Inert :=
  ⟨allInert_nil, List.forall_mem_cons.mpr ⟨⟨inert.done, cut.style⟩, inert.frames⟩⟩

theorem Inert.body (inert : s.Inert) (cut : IsCut s.segment.reverse) : AllInert s.body :=
  (inert.done.cons (inert_statement cut.silent)).reverse

theorem Inert.closeBlock (inert : s.Inert) (cut : IsCut s.segment.reverse) :
    s.closeBlock.Inert := by
  rw [Scan.closeBlock]
  cases frames : s.frames with
  | nil => exact ⟨inert.done.cons inert_stray, fun f hf => inert.frames f (frames ▸ hf)⟩
  | cons f outer =>
    obtain ⟨first, later⟩ := List.forall_mem_cons.mp (frames ▸ inert.frames)
    exact ⟨first.before.cons (inert_block first.style (inert.body cut)), later⟩

theorem closeBlock_start (bare : s.reading = .bare) : s.closeBlock.Within [] [] := by
  rw [Scan.closeBlock]
  cases s.frames with
  | nil => exact ⟨bare, fun _ hc => absurd hc List.not_mem_nil, rfl⟩
  | cons f outer => exact ⟨bare, fun _ hc => absurd hc List.not_mem_nil, rfl⟩

/-- The scan goes on in the name. -/
def Passes (s : Scan) (c : Char) : Prop :=
  c ∉ ['"', '\'', '{', '}'] ∧ ¬ (c = ';' ∧ s.parens = 0)

/-- Behind its backslash, a character is kept, or the scan breaks at it. -/
theorem Within.step_special (within : s.Within lead name) (inert : s.Inert)
    (dot : lead = [] ∨ lead = ['.']) :
    (s.Passes c ∧ (s.keep '\\').step c =
        { (s.keep '\\').keep c with parens := bracketDepth ['('] [')'] s.parens c }) ∨
      ¬ s.Passes c ∧ ((s.keep '\\').step c).Broken := by
  let t := s.keep '\\'
  have bare : t.reading = .bare := within.bare
  have kept : t.Inert := ⟨inert.done, inert.frames⟩
  have cut : IsCut t.segment.reverse :=
    ⟨lead, name, dot, within.visible, by simp [t, keep, within.segment]⟩
  have nothing : ∀ d ∈ ([] : List Char), Text.isBlank d = false :=
    fun _ hd => absurd hd List.not_mem_nil
  by_cases quote : c = '"' ∨ c = '\''
  · refine .inr ⟨fun passes => passes.1 (by rcases quote with rfl | rfl <;> simp), ?_⟩
    rw [step_bare c bare, if_pos quote]
    exact ⟨⟨inert.done, inert.frames⟩, .inl ⟨c, quote, rfl⟩⟩
  by_cases opens : c = '('
  · subst opens
    exact .inl ⟨by simp [Passes], step_bare '(' bare⟩
  by_cases closes : c = ')'
  · subst closes
    exact .inl ⟨by simp [Passes], step_bare ')' bare⟩
  by_cases ends : c = ';' ∧ s.parens = 0
  · refine .inr ⟨fun passes => passes.2 ends, ?_⟩
    have done : t.step c = t.endStatement := by
      rw [ends.1]
      exact step_semicolon ⟨ends.2, bare⟩
    rw [done]
    exact ⟨kept.endStatement cut, .inr ⟨[], bare, nothing, rfl⟩⟩
  by_cases brace : c = '{'
  · subst brace
    refine .inr ⟨by simp [Passes], ?_⟩
    rw [step_opening bare]
    exact ⟨kept.openBlock cut, .inr ⟨[], bare, nothing, rfl⟩⟩
  by_cases unbrace : c = '}'
  · subst unbrace
    refine .inr ⟨by simp [Passes], ?_⟩
    rw [step_closing bare]
    exact ⟨kept.closeBlock cut, .inr ⟨[], closeBlock_start bare⟩⟩
  -- All that is left is kept at the same depth.
  · have stays : ¬ (c = ';' ∧ t.parens = 0) := ends
    refine .inl ⟨⟨by simp_all, ends⟩, ?_⟩
    rw [step_bare c bare, if_neg quote, if_neg opens, if_neg closes, if_neg stays, if_neg brace,
      if_neg unbrace]
    have depth : bracketDepth ['('] [')'] s.parens c = s.parens := by
      simp [bracketDepth, opens, closes]
    rw [depth]
    rfl

theorem bracketDepth_plain (plain : isPlain c = true) (depth : Nat) :
    bracketDepth ['('] [')'] depth c = depth := by
  have opens : c ≠ '(' := Selector.ne_of_isPlain plain rfl
  have closes : c ≠ ')' := Selector.ne_of_isPlain plain rfl
  simp [bracketDepth, opens, closes]

theorem isOrdinary_of_isPlain (plain : isPlain c = true) : IsOrdinary c :=
  isOrdinary_of_kind (by decide) plain

theorem passes_of_isPlain (plain : isPlain c = true) : s.Passes c := by
  have other (d : Char) (special : isPlain d = false) : c ≠ d :=
    Selector.ne_of_isPlain plain special
  simp [Passes, other '"' rfl, other '\'' rfl, other ';' rfl, other '{' rfl, other '}' rfl]

/-- One character of the name is kept as it was escaped, or the scan breaks at it. -/
theorem Within.run_escapeChar (within : s.Within lead name) (inert : s.Inert)
    (dot : lead = [] ∨ lead = ['.']) :
    (s.Passes c ∧ s.run (escapeChar c) =
        { s with
          segment := (escapeChar c).reverse ++ s.segment
          parens := bracketDepth ['('] [')'] s.parens c }) ∨
      ¬ s.Passes c ∧ (s.run (escapeChar c)).Broken := by
  cases plain : isPlain c with
  | true =>
    refine .inl ⟨passes_of_isPlain plain, ?_⟩
    have here : s.run [c] = s.keep c := step_ordinary within.bare (isOrdinary_of_isPlain plain)
    rw [Selector.escapeChar_plain plain, here, bracketDepth_plain plain]
    rfl
  | false =>
    have slash : s.step '\\' = s.keep '\\' := step_ordinary within.bare (by decide)
    have here : s.run ['\\', c] = (s.keep '\\').step c := congrArg (·.step c) slash
    rw [Selector.escapeChar_special plain, here]
    exact within.step_special inert dot

theorem Within.snoc (within : s.Within lead name) (visible : Text.isBlank c = false)
    (parens : Nat) :
    Within { s with segment := (escapeChar c).reverse ++ s.segment, parens := parens } lead
      (name ++ [c]) where
  bare := within.bare
  visible := List.forall_mem_append.mpr ⟨within.visible, List.forall_mem_singleton.mpr visible⟩
  segment := by
    simp [within.segment, Selector.escape_append, Selector.escape_cons]

/-- All that is escaped stays in a string, quotes too. -/
theorem InString.run_escapeChar (inside : s.InString) :
    ∃ segment, s.run (escapeChar c) = { s with segment := segment } := by
  obtain ⟨mark, quote, reading⟩ := inside
  cases plain : isPlain c with
  | true =>
    have slash : c ≠ '\\' := Selector.ne_of_isPlain plain rfl
    have other : c ≠ mark := by
      rcases quote with rfl | rfl <;> exact Selector.ne_of_isPlain plain rfl
    have here : s.run [c] = s.keep c := by
      have step := step_quoted c reading
      rwa [if_neg slash, if_neg other] at step
    exact ⟨c :: s.segment, Selector.escapeChar_plain plain ▸ here⟩
  | false =>
    have slash : s.step '\\' = { s.keep '\\' with reading := .escaped mark } :=
      step_quoted '\\' reading
    have here : s.run ['\\', c] = { s with segment := c :: '\\' :: s.segment } := by
      have onward : s.run ['\\', c] = (s.step '\\').step c := rfl
      rw [onward, slash, step_escaped c rfl, ← reading]
      rfl
    exact ⟨_, Selector.escapeChar_special plain ▸ here⟩

theorem Broken.run_escapeChar (broken : s.Broken) (visible : Text.isBlank c = false) :
    (s.run (escapeChar c)).Broken := by
  obtain ⟨inert, inside | ⟨name, within⟩⟩ := broken
  · obtain ⟨segment, passed⟩ := inside.run_escapeChar (c := c)
    rw [passed]
    exact ⟨⟨inert.done, inert.frames⟩, .inl inside⟩
  · rcases within.run_escapeChar inert (.inl rfl) (c := c) with ⟨-, passed⟩ | ⟨-, breaks⟩
    · rw [passed]
      exact ⟨⟨inert.done, inert.frames⟩, .inr ⟨name ++ [c], within.snoc visible _⟩⟩
    · exact breaks

end Steps

section Runs

variable {s : Scan} {name : List Char}

theorem Broken.run_escape (broken : s.Broken) {rest : List Char}
    (visible : ∀ c ∈ rest, Text.isBlank c = false) : (s.run (escape rest)).Broken := by
  induction rest generalizing s with
  | nil => exact broken
  | cons c rest ih =>
    obtain ⟨here, later⟩ := List.forall_mem_cons.mp visible
    rw [Selector.escape_cons, run_append]
    exact ih (broken.run_escapeChar here) later

/-- An escaped name is kept whole if nothing in it breaks the scan. Once broken, the scan
stays so. -/
theorem Within.run_escape (within : s.Within ['.'] name) (inert : s.Inert) {rest : List Char}
    (visible : ∀ c ∈ rest, Text.isBlank c = false) :
    (Unbroken s.parens rest ∧ ∃ parens, s.run (escape rest) =
        { s with segment := (escape rest).reverse ++ s.segment, parens := parens }) ∨
      ¬ Unbroken s.parens rest ∧ (s.run (escape rest)).Broken := by
  induction rest generalizing s name with
  | nil => exact .inl ⟨⟨fun _ hc => absurd hc List.not_mem_nil, rfl⟩, s.parens, rfl⟩
  | cons c rest ih =>
    obtain ⟨here, later⟩ := List.forall_mem_cons.mp visible
    -- The condition on the name is the condition on each step, at the depth reached there.
    have split : Unbroken s.parens (c :: rest) ↔
        s.Passes c ∧ Unbroken (bracketDepth ['('] [')'] s.parens c) rest := by
      rw [Unbroken, Unbroken, SemicolonsInside, OnlyInside, List.forall_mem_cons, Passes]
      simp only [Bool.and_eq_true, Bool.not_eq_true', Bool.and_eq_false_iff,
        decide_eq_false_iff_not]
      tauto
    rw [Selector.escape_cons, run_append]
    rcases within.run_escapeChar inert (.inr rfl) (c := c) with ⟨passes, passed⟩ | ⟨stops, breaks⟩
    · rw [passed]
      have next := within.snoc here (bracketDepth ['('] [')'] s.parens c)
      rcases ih next ⟨inert.done, inert.frames⟩ later with
        ⟨unbroken, parens, whole⟩ | ⟨broken, breaks⟩
      · refine .inl ⟨split.mpr ⟨passes, unbroken⟩, parens, ?_⟩
        rw [whole]
        simp
      · exact .inr ⟨fun unbroken => broken (split.mp unbroken).2, breaks⟩
    · exact .inr ⟨fun unbroken => stops (split.mp unbroken).1, breaks.run_escape later⟩

end Runs

end Scan

/-! ## The end of the sheet -/

section Margin

/-- What stands behind the selector. -/
def margin : List Char := " \x7b margin: 1px \x7d".toList

/-- All that the block says. -/
def marginBody : List Char := " margin: 1px ".toList

def marginSaid : List (List Char) := ["margin: 1px".toList]

namespace Scan

variable {s : Scan}

theorem run_margin (bare : s.reading = .bare) :
    s.run margin =
      { s with
        done := .block (s.segment.reverse ++ [' ']) [.statement marginBody false] :: s.done
        segment := []
        parens := 0 } := by
  let lead := s.keep ' '
  have space : s.step ' ' = lead := step_ordinary bare (by decide)
  have opens : lead.step '{' = lead.openBlock := step_opening bare
  have ordinary : ∀ c ∈ marginBody, IsOrdinary c := by
    simpa using (by decide : marginBody.all (IsOrdinary ·) = true)
  have inside := run_ordinary (s := lead.openBlock) bare ordinary
  have closes := step_closing (s := lead.openBlock.run marginBody) (by rw [inside]; exact bare)
  have whole : margin = ' ' :: '{' :: (marginBody ++ ['}']) := by decide
  have last : lead.openBlock.run (marginBody ++ ['}']) =
      (lead.openBlock.run marginBody).step '}' := run_append _ _ _
  rw [whole, run_cons, run_cons, space, opens, last, closes, inside]
  simp [openBlock, closeBlock, body, lead, keep]

theorem run_quoted {mark : Char} (reading : s.reading = .quoted mark) {text : List Char}
    (h : ∀ c ∈ text, c ≠ '\\' ∧ c ≠ mark) :
    s.run text = { s with segment := text.reverse ++ s.segment } := by
  induction text generalizing s with
  | nil => rfl
  | cons c text ih =>
    obtain ⟨⟨slash, other⟩, later⟩ := List.forall_mem_cons.mp h
    have here : s.step c = s.keep c := by
      have step := step_quoted c reading
      rwa [if_neg slash, if_neg other] at step
    have behind := ih (s := s.keep c) reading later
    rw [run_cons, here, behind]
    simp [keep]

theorem InString.run_margin (inside : s.InString) :
    s.run margin = { s with segment := margin.reverse ++ s.segment } := by
  obtain ⟨mark, quote, reading⟩ := inside
  have free : margin.all (· ∉ ['\\', '"', '\'']) = true := by decide
  refine run_quoted reading fun c hc => ?_
  have other : c ∉ ['\\', '"', '\''] := by simpa using List.all_eq_true.mp free c hc
  simp only [List.mem_cons, List.not_mem_nil, or_false, not_or] at other
  rcases quote with rfl | rfl
  · exact ⟨other.1, other.2.1⟩
  · exact ⟨other.1, other.2.2⟩

theorem allInert_cutOff {frames : List Frame} (some : frames ≠ []) (h : ∀ f ∈ frames, f.Inert)
    (inner : List Piece) : AllInert (cutOff frames inner) := by
  induction frames generalizing inner with
  | nil => exact absurd rfl some
  | cons f outer ih =>
    obtain ⟨first, later⟩ := List.forall_mem_cons.mp h
    have pieces : AllInert (f.before.reverse ++ [.unclosed f.lead inner]) :=
      first.before.reverse.append (allInert_nil.cons inert_unclosed)
    by_cases last : outer = []
    · subst last
      exact pieces
    · exact ih last later _

/-- The rules of a block whose body is the margin. -/
theorem styleRules_margin {lead : List Char} (style : isAtRule (Text.trim lead) = false)
    (file : String) :
    (Piece.block lead [.statement marginBody false]).styleRules file [] =
      rulesSaid (selectorList (Text.trim lead)) marginSaid file := by
  have said : statements [.statement marginBody false] = marginSaid := by
    decide
  rw [Piece.styleRules]
  simp only [style, Bool.false_eq_true, if_false]
  rw [ownRules_eq, said]
  exact RuleSet.append_empty _

theorem finish_outside (outside : s.frames = []) :
    s.finish = s.done.reverse ++ [.statement s.segment.reverse false] := by
  simp [finish, outside, cutOff, body]

/-- What is left of the name is the selector of the last block. -/
theorem Within.rules_margin {lead name : List Char} (within : s.Within lead name) (inert : s.Inert)
    (dot : lead = [] ∨ lead = ['.']) (outside : s.frames = []) (file : String) :
    AllStyle (s.run margin).finish ∧
      nestedRules file [] (s.run margin).finish =
        rulesSaid (selectorList (lead ++ escape name)) marginSaid file := by
  have visible : ∀ c ∈ lead ++ escape name, Text.isBlank c = false :=
    List.forall_mem_append.mpr ⟨visible_lead dot, Selector.visible_escape within.visible⟩
  have trimmed : Text.trim (s.segment.reverse ++ [' ']) = lead ++ escape name := by
    rw [within.segment, Text.trim_append_blank _ (by decide : Text.Blank [' '])]
    exact trim_visible visible
  have style : isAtRule (Text.trim (s.segment.reverse ++ [' '])) = false := by
    rw [trimmed, ← List.append_nil (lead ++ escape name)]
    exact decide_eq_false (head_written dot (by decide))
  rw [run_margin within.bare, finish_outside (by exact outside)]
  simp only [List.reverse_cons]
  constructor
  · refine (inert.done.reverse.allStyle.snoc fun prelude here => ?_).snoc fun _ none => by cases none
    cases here
    exact style
  · rw [nestedRules_statement, nestedRules_append, inert.done.reverse.nestedRules_eq, nestedRules,
      styleRules_margin style, trimmed]
    exact RuleSet.append_empty _

/-- Behind a broken scan nothing comes of the whole sheet, or one block for a part of the
name that has no dot. -/
theorem Broken.rules_margin (broken : s.Broken) (file : String) :
    AllStyle (s.run margin).finish ∧
      (nestedRules file [] (s.run margin).finish = ∅ ∨
        ∃ name, (∀ c ∈ name, Text.isBlank c = false) ∧
          nestedRules file [] (s.run margin).finish =
            rulesSaid (selectorList (escape name)) marginSaid file) := by
  obtain ⟨inert, stands⟩ := broken
  by_cases outside : s.frames = []
  · rcases stands with inside | ⟨name, within⟩
    · rw [inside.run_margin, finish_outside (by exact outside), nestedRules_statement,
        inert.done.reverse.nestedRules_eq]
      exact ⟨inert.done.reverse.allStyle.snoc fun _ none => (by cases none), .inl rfl⟩
    · obtain ⟨style, rules⟩ := within.rules_margin inert (.inl rfl) outside file
      exact ⟨style, .inr ⟨name, within.visible, rules⟩⟩
  · have open' : (s.run margin).frames = s.frames := by
      rcases stands with inside | ⟨name, within⟩
      · rw [inside.run_margin]
      · rw [run_margin within.bare]
    have all : AllInert (s.run margin).finish := by
      rw [finish, open']
      exact allInert_cutOff outside inert.frames _
    exact ⟨all.allStyle, .inl (all.nestedRules_eq file [])⟩

end Scan

end Margin

end AuthoredStyle.Sheet
