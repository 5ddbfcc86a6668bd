import Mathlib.Data.Bool.AllAny
import AuthoredStyle.Proofs.Sheet.Bracketed
import AuthoredStyle.Proofs.Sheet.CutOut
import AuthoredStyle.Proofs.Sheet.EscapedScan
import AuthoredStyle.Proofs.Sheet.WellFormed

/-!
# Rules with an attribute

A selector asks for a class and for an attribute with a quoted value, and a sheet has one
rule for it, by itself or in a media block. The scan of the sheet keeps the value whole, as
it stands in quotes. What comes behind the scan looks at no quotes: a colon in the value
starts a pseudo token, so that the rule is filed elsewhere or dropped, and a comma may cut
the selector in two, since a closing parenthesis counts as the closing bracket. Without
either the rule is kept as it was written.
-/

namespace AuthoredStyle.Sheet

open Selector (isPlain)
open Text (Blank collapse)

/-! ## The parts of a sheet -/

/-- A class and an attribute with a value in double quotes. -/
structure AttributeSelector where
  name : List Char
  key : List Char
  value : List Char
  plainName : ∀ c ∈ name, isPlain c = true
  plainKey : ∀ c ∈ key, isPlain c = true
  /-- No quotes, braces, brackets and backslashes. -/
  free : ∀ c ∈ value, c ∉ ['"', '\'', '{', '}', '[', ']', '\\']
  uncommented : OpensNoComment value

/-- From behind the selector on: a blank gap, statements and the text behind the last one. -/
structure StyleBlock where
  gap : List Char
  said : List (List Char)
  last : List Char
  blank : Blank gap
  passes : ∀ t ∈ last :: said, PassesOver t
  uncommented : ∀ t ∈ last :: said, OpensNoComment t
  declares :
    declarations (statements (said.map (.statement · true) ++ [.statement last false])) ≠ []

/-- What stands in front of the brace of a media block whose condition is known. -/
structure KnownMedia where
  lead : List Char
  breakpoint : String
  passes : PassesOver lead
  uncommented : OpensNoComment lead
  known : (Text.dropLead? "@media".toList (Text.lower (Text.trim lead))).bind
    Property.breakpoint? = some breakpoint

namespace AttributeSelector

def opening (s : AttributeSelector) : List Char :=
  '.' :: s.name ++ '[' :: s.key ++ ['=']

def text (s : AttributeSelector) : List Char :=
  s.opening ++ '"' :: (s.value ++ ['"', ']'])

/-- No colon stands in the value, and a comma only where a bracket of some kind is open. -/
def Contained (s : AttributeSelector) : Prop := ':' ∉ s.value ∧ CommasInside 1 s.value = true

end AttributeSelector

namespace StyleBlock

def body (b : StyleBlock) : List Piece :=
  b.said.map (.statement · true) ++ [.statement b.last false]

def declared (b : StyleBlock) : Declarations := declarations (statements b.body)

/-- The block of a selector. -/
def under (b : StyleBlock) (selector : List Char) : Piece := .block (selector ++ b.gap) b.body

end StyleBlock

/-- A media block of one piece. -/
def KnownMedia.around (m : KnownMedia) (p : Piece) : Piece :=
  .block m.lead ([p] ++ [.statement [] false])

/-! ## Scanning the sheet -/

section Scanning

variable (s : AttributeSelector) (b : StyleBlock) (m : KnownMedia)

theorem AttributeSelector.mem_opening {c : Char} (hc : c ∈ s.opening) :
    isPlain c = true ∨ c ∈ ['.', '[', '='] := by
  simp only [opening, List.cons_append, List.mem_cons, List.mem_append, List.append_assoc,
    List.not_mem_nil, or_false] at hc
  rcases hc with rfl | hc | rfl | hc | rfl
  · exact .inr (by simp)
  · exact .inl (s.plainName c hc)
  · exact .inr (by simp)
  · exact .inl (s.plainKey c hc)
  · exact .inr (by simp)

theorem AttributeSelector.not_mem_opening {d : Char} (special : isPlain d = false)
    (other : d ∉ ['.', '[', '=']) : d ∉ s.opening := by
  intro hd
  rcases s.mem_opening hd with plain | mark
  · rw [special] at plain
    cases plain
  · exact other mark

theorem passesOver_string {value : List Char} (free : ∀ c ∈ value, c ≠ '\\' ∧ c ≠ '"') :
    PassesOver ('"' :: (value ++ ['"'])) := by
  let opened : Scan := { segment := ['"'], reading := .quoted '"' }
  have opens : Scan.step {} '"' = opened := rfl
  have through := Scan.run_quoted (s := opened) rfl free
  rw [PassesOver, Scan.run_cons, opens, Scan.run_append, through]
  simp [Scan.run, Scan.step, Scan.keep, opened]

theorem AttributeSelector.passesOver_text : PassesOver s.text := by
  have front : PassesOver s.opening := by
    refine passesOver_ordinary fun c hc => ?_
    rcases s.mem_opening hc with plain | mark
    · exact Scan.isOrdinary_of_isPlain plain
    · exact (by simp [IsOrdinary, marks] : ∀ c ∈ ['.', '[', '='], IsOrdinary c) c mark
  have string : PassesOver ('"' :: (s.value ++ ['"'])) := by
    refine passesOver_string fun c hc => ⟨?_, ?_⟩
    · rintro rfl
      exact s.free _ hc (by decide)
    · rintro rfl
      exact s.free _ hc (by decide)
  have bracket : PassesOver [']'] := passesOver_of_all (by decide)
  have whole := front.append (string.append bracket)
  simpa [text] using whole

theorem AttributeSelector.settled_text : Settled s.text := by
  have front : Settled s.opening :=
    settled_of_not_mem (s.not_mem_opening (by decide) (by decide))
  have quote : Settled ['"'] := settled_of_not_mem (by decide)
  have value : Settled (s.value ++ ['"']) :=
    s.uncommented.settled_snoc (by decide) (by decide)
  have bracket : Settled [']'] := settled_of_not_mem (by decide)
  have whole := front.append (quote.append (value.append bracket))
  simpa [text] using whole

theorem AttributeSelector.text_eq_snoc :
    s.text = s.opening ++ '"' :: (s.value ++ ['"']) ++ [']'] := by
  simp [text]

theorem AttributeSelector.trim_text : Text.trim s.text = s.text := by
  refine Text.trim_eq_self ?_ ?_
  · intro c hc
    cases hc
    rfl
  · intro c hc
    rw [s.text_eq_snoc, List.getLast?_concat] at hc
    cases hc
    rfl

theorem AttributeSelector.trim_lead : Text.trim (s.text ++ b.gap) = s.text := by
  rw [Text.trim_append_blank _ b.blank, s.trim_text]

theorem settled_statements {said : List (List Char)} (h : ∀ t ∈ said, OpensNoComment t) :
    Settled (sources (said.map (.statement · true))) := by
  induction said with
  | nil => exact settled_of_not_mem List.not_mem_nil
  | cons t ts ih =>
    obtain ⟨first, later⟩ := List.forall_mem_cons.mp h
    exact (first.settled_snoc (by decide) (by decide)).append (ih later)

theorem StyleBlock.settled_source : Settled (b.under s.text).source := by
  obtain ⟨last, said⟩ := List.forall_mem_cons.mp b.uncommented
  have gap : Settled b.gap :=
    settled_of_not_mem fun slash => absurd (b.blank _ slash) (by decide)
  have opens : Settled ['{'] := settled_of_not_mem (by decide)
  have ends : Settled (b.last ++ ['}']) := last.settled_snoc (by decide) (by decide)
  have statements := settled_statements said
  have whole := s.settled_text.append (gap.append (opens.append (statements.append ends)))
  simpa [under, body, Piece.source, sources_append, sources] using whole

theorem KnownMedia.settled_source {p : Piece} (settled : Settled p.source) :
    Settled (m.around p).source := by
  have opens : Settled (m.lead ++ ['{']) := m.uncommented.settled_snoc (by decide) (by decide)
  have closes : Settled ['}'] := settled_of_not_mem (by decide)
  have whole := opens.append (settled.append closes)
  simpa [around, Piece.source, sources] using whole

theorem StyleBlock.cutsAlone_under : CutsAlone (b.under s.text) := by
  obtain ⟨last, said⟩ := List.forall_mem_cons.mp b.passes
  refine cutsAlone_block (s.passesOver_text.append (passesOver_blank b.blank)) (fun p hp => ?_) last
  obtain ⟨t, ht, rfl⟩ := List.mem_map.mp hp
  exact cutsAlone_statement (said t ht)

theorem KnownMedia.cutsAlone_around {p : Piece} (alone : CutsAlone p) :
    CutsAlone (m.around p) :=
  cutsAlone_block m.passes (List.forall_mem_singleton.mpr alone) (passesOver_blank Text.blank_nil)

/-- A sheet of one block is cut into the block and nothing. -/
theorem pieces_source {p : Piece} (alone : CutsAlone p) :
    pieces p.source = [p, .statement [] false] := by
  have again : CutsAgain [p, .statement [] false] :=
    ⟨[p], _, rfl, List.forall_mem_singleton.mpr alone,
      cutsLast_statement (passesOver_blank Text.blank_nil), rfl⟩
  have source : sources [p, .statement [] false] = p.source := by simp [sources, Piece.source]
  rw [← source, again.pieces_sources]

end Scanning

/-! ## Reading the sheet -/

section Reading

variable (s : AttributeSelector) (b : StyleBlock) (m : KnownMedia) (file : String)

theorem AttributeSelector.style : isAtRule s.text = false := rfl

theorem StyleBlock.declares_some : (declarations (statements b.body)).isEmpty = false :=
  List.isEmpty_eq_false_iff.mpr b.declares

theorem StyleBlock.nestedRules_body (parents : List (List Char)) :
    nestedRules file parents b.body = ∅ := by
  rw [body, nestedRules_statement]
  induction b.said with
  | nil => rfl
  | cons t ts ih => exact ih

/-- By itself the rule is one of a rule list. -/
theorem read_under :
    read (String.ofList (b.under s.text).source) file =
      rulesSaid (selectorList s.text) (statements b.body) file := by
  have cut := pieces_source (b.cutsAlone_under s)
  have style : AllStyle [b.under s.text, .statement [] false] := by
    intro p hp prelude under'
    rcases List.mem_cons.mp hp with rfl | hp
    · cases under'
      rw [s.trim_lead]
      exact s.style
    · rw [List.mem_singleton.mp hp] at under'
      cases under'
  have text : (String.ofList (b.under s.text).source).toList = (b.under s.text).source :=
    String.toList_ofList
  rw [read_allStyle (by rw [text]; exact (b.settled_source s).opensNone)
    (by rw [text, cut]; exact style), text, cut]
  simp [nestedRules, StyleBlock.under, Piece.styleRules, s.trim_lead, s.style, ownRules_eq, nest,
    b.nestedRules_body]

theorem KnownMedia.leads : ∃ rest, Text.lower (Text.trim m.lead) = "@media".toList ++ rest ∧
    Property.breakpoint? rest = some m.breakpoint := by
  obtain ⟨rest, found, known⟩ := Option.bind_eq_some_iff.mp m.known
  exact ⟨rest, Text.eq_of_dropLead? found, known⟩

theorem KnownMedia.isCutOut (p : Piece) : (m.around p).isCutOut = true := by
  obtain ⟨rest, starts, -⟩ := m.leads
  have media : leadsWith "@media" (Text.trim m.lead) = true := by
    rw [leadsWith, Text.hasLead, starts, List.isPrefixOf_iff_prefix]
    exact List.prefix_append _ _
  simp [around, Piece.isCutOut, media]

theorem KnownMedia.mediaRules (p : Piece) :
    (m.around p).mediaRules = p.breakpointRules m.breakpoint := by
  obtain ⟨rest, starts, known⟩ := m.leads
  have kept : isDroppedAtRule ("@media".toList ++ rest) = false := rfl
  rw [around, Piece.mediaRules, starts, kept, Text.dropLead?_append, Option.bind_some, known]
  simp [Piece.breakpointRules]

/-- In a media block the rule is one for its breakpoint, and nothing is left of the sheet. -/
theorem read_around :
    read (String.ofList (m.around (b.under s.text)).source) file =
      { media := (b.under s.text).breakpointRules m.breakpoint } := by
  have alone := m.cutsAlone_around (b.cutsAlone_under s)
  have uncommented := (m.settled_source (b.settled_source s)).opensNone
  have nothing : withoutCutOuts (m.around (b.under s.text)).source = [] := by
    have last : (Piece.statement [] false).isCutOut = false := rfl
    rw [withoutCutOuts, pieces_source alone]
    simp [m.isCutOut, last, sources, Piece.source]
  have last : (Piece.statement [] false).mediaRules = [] := rfl
  have bare : listedRules file (pieces []) = ∅ := rfl
  rw [read, String.toList_ofList, dropComments_eq_self uncommented, nothing, bare,
    pieces_source alone]
  simp [m.mediaRules, last]

end Reading

/-! ## Cutting the list of selectors -/

section Commas

/-- A text is one field, or it is cut at its first comma outside brackets. -/
theorem commaFields_or (depth : Nat) (s : List Char) :
    (CommasInside depth s = true ∧ commaFields depth s = [s]) ∨
      CommasInside depth s = false ∧ ∃ x y, s = x ++ ',' :: y ∧
        commaFields depth s = x :: commaFields 0 y := by
  induction s generalizing depth with
  | nil => exact .inl ⟨rfl, rfl⟩
  | cons c s ih =>
    by_cases cut : c = ',' ∧ depth = 0
    · obtain ⟨rfl, rfl⟩ := cut
      exact .inr ⟨rfl, [], s, rfl, rfl⟩
    · have onward : CommasInside depth (c :: s) =
          CommasInside (bracketDepth ['(', '['] [')', ']'] depth c) s := by
        rw [CommasInside, OnlyInside, ← Bool.decide_and, decide_eq_false cut]
        rfl
      rw [onward]
      rcases ih (bracketDepth ['(', '['] [')', ']'] depth c) with
        ⟨inside, whole⟩ | ⟨outside, x, y, rfl, split⟩
      · exact .inl ⟨inside, commaFields_cons_kept cut whole⟩
      · exact .inr ⟨outside, c :: x, y, rfl, commaFields_cons_kept cut split⟩

theorem subset_of_mem_commaFields (depth : Nat) (s : List Char) :
    ∀ f ∈ commaFields depth s, ∀ c ∈ f, c ∈ s := by
  rcases commaFields_or depth s with ⟨-, whole⟩ | ⟨-, x, y, split, cut⟩
  · rw [whole]
    exact List.forall_mem_singleton.mpr fun _ hc => hc
  · rw [cut]
    refine List.forall_mem_cons.mpr ⟨fun c hc => by simp [split, hc], fun f hf c hc => ?_⟩
    have later := subset_of_mem_commaFields 0 y f hf c hc
    simp [split, later]
termination_by s.length
decreasing_by
  rw [split, List.length_append, List.length_cons]
  omega

theorem commasInside_of_none {s : List Char} (none : ',' ∉ s) (depth : Nat) :
    CommasInside depth s = true := by
  rcases commaFields_or depth s with ⟨inside, -⟩ | ⟨-, x, y, rfl, -⟩
  · exact inside
  · exact absurd (by simp) none

/-- Commas are judged alike whatever stands behind the text without one. -/
theorem commasInside_append_of_none (s : List Char) {t : List Char} (none : ',' ∉ t)
    (depth : Nat) : CommasInside depth (s ++ t) = CommasInside depth s := by
  induction s generalizing depth with
  | nil => exact commasInside_of_none none depth
  | cons c s ih => exact congrArg (_ && ·) (ih _)

/-- And in front of it, where no bracket stands either. -/
theorem commasInside_of_append {s : List Char} (t : List Char)
    (free : ∀ c ∈ s, c ∉ [',', '(', '[', ')', ']']) (depth : Nat) :
    CommasInside depth (s ++ t) = CommasInside depth t := by
  induction s with
  | nil => rfl
  | cons c s ih =>
    obtain ⟨here, later⟩ := List.forall_mem_cons.mp free
    simp only [List.mem_cons, List.not_mem_nil, or_false, not_or] at here
    have stays : bracketDepth ['(', '['] [')', ']'] depth c = depth := by
      simp [bracketDepth, here]
    have first : CommasInside depth (c :: (s ++ t)) =
        CommasInside (bracketDepth ['(', '['] [')', ']'] depth c) (s ++ t) := by
      simp [CommasInside, OnlyInside, here]
    rw [List.cons_append, first, stays, ih later]

end Commas

section Selectors

variable (s : AttributeSelector)

theorem AttributeSelector.text_eq :
    s.text = '.' :: s.name ++ '[' :: (s.key ++ ['=', '"'] ++ (s.value ++ ['"', ']'])) := by
  simp [text, opening]

theorem AttributeSelector.commasInside_text :
    CommasInside 0 s.text = CommasInside 1 s.value := by
  have plain {c : Char} (h : isPlain c = true) : c ∉ [',', '(', '[', ')', ']'] := by
    intro mark
    have apart : [',', '(', '[', ')', ']'].all (!isPlain ·) = true := by decide
    have other := List.all_eq_true.mp apart c mark
    simp [h] at other
  have name : ∀ c ∈ '.' :: s.name, c ∉ [',', '(', '[', ')', ']'] :=
    List.forall_mem_cons.mpr ⟨by decide, fun c hc => plain (s.plainName c hc)⟩
  have key : ∀ c ∈ s.key ++ ['=', '"'], c ∉ [',', '(', '[', ')', ']'] :=
    List.forall_mem_append.mpr ⟨fun c hc => plain (s.plainKey c hc), by simp⟩
  have bracket (t : List Char) : CommasInside 0 ('[' :: t) = CommasInside 1 t := rfl
  rw [s.text_eq, commasInside_of_append _ name, bracket, commasInside_of_append _ key,
    commasInside_append_of_none _ (by decide)]

theorem AttributeSelector.not_mem_value {d : Char}
    (mark : d ∈ ['"', '\'', '{', '}', '[', ']', '\\']) : d ∉ s.value :=
  fun hd => s.free d hd mark

theorem AttributeSelector.mem_text_iff {d : Char} (special : isPlain d = false)
    (other : d ∉ ['.', '[', '=', '"', ']']) : d ∈ s.text ↔ d ∈ s.value := by
  have name : d ∉ s.name := fun hd => Selector.ne_of_isPlain (s.plainName d hd) special rfl
  have key : d ∉ s.key := fun hd => Selector.ne_of_isPlain (s.plainKey d hd) special rfl
  simp only [List.mem_cons, List.not_mem_nil, or_false, not_or] at other
  simp [text, opening, name, key, other]

theorem AttributeSelector.count_text {d : Char} (bracket : d = '[' ∨ d = ']') :
    s.text.count d = 1 := by
  have special : isPlain d = false := by rcases bracket with rfl | rfl <;> decide
  have name : d ∉ s.name := fun hd => Selector.ne_of_isPlain (s.plainName d hd) special rfl
  have key : d ∉ s.key := fun hd => Selector.ne_of_isPlain (s.plainKey d hd) special rfl
  have value : d ∉ s.value := s.not_mem_value (by rcases bracket with rfl | rfl <;> decide)
  rw [text, opening]
  rcases bracket with rfl | rfl <;>
    simp [List.count_eq_zero_of_not_mem name, List.count_eq_zero_of_not_mem key,
      List.count_eq_zero_of_not_mem value]

/-- A field with both brackets is the whole selector: a comma that cuts stands between them. -/
theorem AttributeSelector.commasInside_of_mem {f : List Char} (hf : f ∈ commaFields 0 s.text)
    (opens : '[' ∈ f) (closes : ']' ∈ f) : CommasInside 1 s.value = true := by
  rw [← s.commasInside_text]
  rcases commaFields_or 0 s.text with ⟨inside, -⟩ | ⟨-, x, y, split, cut⟩
  · exact inside
  · have front : '[' ∈ x := by
      rw [s.text_eq] at split
      rcases List.append_eq_append_iff.mp split with ⟨z, rfl, rest⟩ | ⟨z, name, rest⟩
      · cases z with
        | nil => cases (List.cons_eq_cons.mp rest).1
        | cons c z =>
          obtain ⟨rfl, -⟩ := List.cons_eq_cons.mp rest
          simp
      · cases z with
        | nil => cases (List.cons_eq_cons.mp rest).1
        | cons c z =>
          obtain ⟨rfl, -⟩ := List.cons_eq_cons.mp rest
          have comma : ',' ∈ '.' :: s.name := by simp [name]
          rcases List.mem_cons.mp comma with dot | inside
          · cases dot
          · cases s.plainName _ inside
    have behind : ']' ∈ y := by
      have last : (x ++ ',' :: y).getLast? = some ']' := by
        rw [← split, s.text_eq_snoc, List.getLast?_concat]
      rw [List.getLast?_append_of_ne_nil _ (List.cons_ne_nil _ _)] at last
      simpa using List.mem_of_getLast? last
    have one (d : Char) (bracket : d = '[' ∨ d = ']') : x.count d + y.count d = 1 := by
      have whole := s.count_text bracket
      have comma : ',' ≠ d := by rcases bracket with rfl | rfl <;> decide
      rwa [split, List.count_append, List.count_cons_of_ne comma] at whole
    rw [cut] at hf
    rcases List.mem_cons.mp hf with rfl | hf
    · have first := List.count_pos_iff.mpr closes
      have second := List.count_pos_iff.mpr behind
      have := one ']' (.inr rfl)
      omega
    · have first := List.count_pos_iff.mpr front
      have second := List.count_pos_iff.mpr (subset_of_mem_commaFields 0 y f hf '[' opens)
      have := one '[' (.inl rfl)
      omega

end Selectors

/-! ## Kept as it was written -/

section Kept

variable (s : AttributeSelector) (b : StyleBlock) (m : KnownMedia) (file : String)

theorem splitPseudo_collapse {f : List Char} (colon : ':' ∉ f) (slash : '\\' ∉ f) :
    splitPseudo (collapse f) = (collapse f, []) := by
  have bare : partPseudo (collapse f) = (collapse f, []) :=
    partPseudo_plain (mt (Text.mem_collapse rfl).mp colon) (mt (Text.mem_collapse rfl).mp slash)
  rw [splitPseudo, bare]
  exact congrArg (·, []) (Text.collapse_collapse f)

theorem ruleOf_stripped {f : List Char} (stripped : splitPseudo f = (f, [])) (ds : Declarations)
    (file : String) :
    ruleOf f ds file =
      if isGeneric f then ∅ else { plain := [⟨.ofList f, .ofList (ds.map (·.1)), file⟩] } := by
  rw [ruleOf, stripped]
  simp

theorem AttributeSelector.slash_not_mem : '\\' ∉ s.text := fun slash =>
  s.not_mem_value (by decide) ((s.mem_text_iff (by decide) (by decide)).mp slash)

theorem AttributeSelector.exists_collapse_text : ∃ rest, collapse s.text = '.' :: rest := by
  have led : s.text = '.' :: s.text.tail := rfl
  obtain ⟨rest, -, whole⟩ := exists_collapse_cons s.text.tail (by decide : Text.isBlank '.' = false)
  exact ⟨rest, by rw [led, whole]⟩

theorem AttributeSelector.isGeneric_text : isGeneric (collapse s.text) = false := by
  obtain ⟨rest, whole⟩ := s.exists_collapse_text
  rw [isGeneric, Text.trim_collapse, whole]
  simp

theorem AttributeSelector.Contained.selectorList_eq {s : AttributeSelector} (h : s.Contained) :
    selectorList s.text = [collapse s.text] ∧
      splitPseudo (collapse s.text) = (collapse s.text, []) := by
  have colon : ':' ∉ s.text := mt (s.mem_text_iff (by decide) (by decide)).mp h.1
  refine ⟨?_, splitPseudo_collapse colon s.slash_not_mem⟩
  have some : collapse s.text ≠ [] := by
    obtain ⟨rest, whole⟩ := s.exists_collapse_text
    rw [whole]
    exact List.cons_ne_nil _ _
  rcases commaFields_or 0 s.text with ⟨-, whole⟩ | ⟨outside, -⟩
  · simp [selectorList, whole, some]
  · rw [s.commasInside_text, h.2] at outside
    cases outside

/-- A kept selector has no token left, so it can be the whole one only if there was none. -/
theorem AttributeSelector.contained_of_kept {f : List Char} (hf : f ∈ selectorList s.text)
    (base : IsBase (.ofList (collapse s.text))) (kept : (splitPseudo f).1 = collapse s.text) :
    s.Contained := by
  have stripped := base.stripped
  rw [String.toList_ofList] at stripped
  have colon : ':' ∉ s.text := by
    intro mem
    obtain ⟨a, c, split⟩ := List.append_of_mem ((Text.mem_collapse (c := ':') rfl).mpr mem)
    have slash : '\\' ∉ a := fun inside =>
      s.slash_not_mem ((Text.mem_collapse rfl).mp (by simp [split, inside]))
    refine tokens_ne_nil (a := a) (by simp [Text.pending_of_not_mem slash]) c ?_
    rw [← split, tokens, stripped]
  obtain ⟨g, hg, rfl⟩ := List.mem_map.mp (List.mem_of_mem_filter hf)
  have within := subset_of_mem_commaFields 0 s.text g hg
  rw [splitPseudo_collapse (mt (within ':') colon) (mt (within '\\') s.slash_not_mem)] at kept
  have mem (d : Char) (visible : Text.isBlank d = false) (hd : d ∈ s.text) : d ∈ g := by
    have listed : d ∈ collapse s.text := (Text.mem_collapse visible).mpr hd
    rw [← kept] at listed
    exact (Text.mem_collapse visible).mp listed
  refine ⟨mt (s.mem_text_iff (by decide) (by decide)).mpr colon, s.commasInside_of_mem hg ?_ ?_⟩
  · exact mem '[' rfl (List.count_pos_iff.mp (by rw [s.count_text (.inl rfl)]; decide))
  · exact mem ']' rfl (List.count_pos_iff.mp (by rw [s.count_text (.inr rfl)]; decide))

theorem exists_of_mem_rulesSaid {selectors said : List (List Char)} {r : PlainRule}
    (hr : r ∈ (rulesSaid selectors said file).plain) :
    ∃ f ∈ selectors, r.selector = .ofList (splitPseudo f).1 := by
  rw [rulesSaid] at hr
  split at hr
  · exact absurd hr List.not_mem_nil
  · rw [RuleSet.bucket_join rfl RuleSet.plain_append] at hr
    obtain ⟨rules, made, hr⟩ := List.mem_flatMap.mp hr
    obtain ⟨f, hf, rfl⟩ := List.mem_map.mp made
    refine ⟨f, hf, ?_⟩
    rcases ruleOf_cases f (declarations said) file with
      none | ⟨-, ⟨element, box⟩ | hover | plain⟩
    · rw [none] at hr
      cases hr
    · rw [box] at hr
      cases hr
    · rw [hover] at hr
      cases hr
    · rw [plain] at hr
      rw [List.mem_singleton.mp hr]

theorem exists_of_mem_breakpointRules {breakpoint : String} {selector : List Char}
    {r : MediaRule} (hr : r ∈ (b.under selector).breakpointRules breakpoint) :
    ∃ f ∈ selectorList (Text.trim (selector ++ b.gap)), r.selector = .ofList (splitPseudo f).1 := by
  rw [StyleBlock.under, Piece.breakpointRules] at hr
  dsimp only at hr
  split at hr
  · cases hr
  · obtain ⟨f, hf, made⟩ := List.mem_filterMap.mp hr
    refine ⟨f, hf, ?_⟩
    split at made
    · cases made
    · cases made
      rfl

/-- A sheet of this rule has one rule, a plain one with the selector as it was written. -/
def AttributeSelector.LandsPlain : Prop :=
  read (String.ofList (b.under s.text).source) file =
    { plain := [⟨.ofList (collapse s.text), .ofList (b.declared.map (·.1)), file⟩] }

/-- A sheet of this media block has one rule, for the breakpoint and with the selector as it was
written. -/
def AttributeSelector.LandsMedia : Prop :=
  read (String.ofList (m.around (b.under s.text)).source) file =
    { media := [⟨.ofList (collapse s.text), m.breakpoint, .ofList b.declared⟩] }

theorem landsPlain_iff : s.LandsPlain b file ↔ s.Contained := by
  rw [AttributeSelector.LandsPlain]
  constructor
  · intro lands
    have good := wellFormed_read (String.ofList (b.under s.text).source) file
    rw [lands] at good
    obtain ⟨base, -⟩ := good.plain _ (List.mem_singleton_self _)
    rw [read_under] at lands
    obtain ⟨f, hf, kept⟩ := exists_of_mem_rulesSaid file
      (by rw [lands]; exact List.mem_singleton_self _)
    exact s.contained_of_kept hf base (String.ofList_injective kept).symm
  · intro contained
    obtain ⟨one, stripped⟩ := contained.selectorList_eq
    rw [read_under, rulesSaid, b.declares_some, one, List.map_singleton, ruleOf_stripped stripped,
      s.isGeneric_text]
    exact RuleSet.append_empty _

theorem landsMedia_iff : s.LandsMedia b m file ↔ s.Contained := by
  rw [AttributeSelector.LandsMedia]
  constructor
  · intro lands
    have good := wellFormed_read (String.ofList (m.around (b.under s.text)).source) file
    rw [lands] at good
    obtain ⟨base, -⟩ := good.media _ (List.mem_singleton_self _)
    rw [read_around] at lands
    obtain ⟨f, hf, kept⟩ := exists_of_mem_breakpointRules b
      (by rw [(RuleSet.mk.inj lands).2.2.1]; exact List.mem_singleton_self _)
    rw [s.trim_lead] at hf
    exact s.contained_of_kept hf base (String.ofList_injective kept).symm
  · intro contained
    obtain ⟨one, stripped⟩ := contained.selectorList_eq
    rw [read_around, StyleBlock.under, Piece.breakpointRules]
    dsimp only
    rw [s.trim_lead, s.style, b.declares_some, one]
    simp [stripped, s.isGeneric_text, StyleBlock.declared]

end Kept

/-- Emptying brackets changes no token exactly where only silent texts stand in them. A rule
for a class with an attribute lands as it was written, by itself or in a media block, exactly
if the attribute's value is contained. -/
theorem brackets_ignored_iff (kind : List Char → Prop) (s : AttributeSelector) (b : StyleBlock)
    (m : KnownMedia) (file : String) :
    ((∀ t, bracketsMatch false t = true → (∀ v, StandsInBrackets v t → kind v) →
        IgnoresBrackets t) ↔ ∀ v, NoBracket v → kind v → IsSilent v) ∧
      (s.LandsPlain b file ↔ s.Contained) ∧ (s.LandsMedia b m file ↔ s.Contained) :=
  ⟨ignoresBrackets_iff kind, landsPlain_iff s b file, landsMedia_iff s b m file⟩

section Links

def homeLink : AttributeSelector where
  name := ['c']
  key := "href".toList
  value := "home".toList
  plainName := List.all_iff_forall_prop.mp (by decide)
  plainKey := List.all_iff_forall_prop.mp (by decide)
  free := List.all_iff_forall_prop.mp (by decide)
  uncommented := opensNoComment_of_not_mem (by decide)

def hoverLink : AttributeSelector where
  name := ['c']
  key := "href".toList
  value := "a:hover".toList
  plainName := List.all_iff_forall_prop.mp (by decide)
  plainKey := List.all_iff_forall_prop.mp (by decide)
  free := List.all_iff_forall_prop.mp (by decide)
  uncommented := opensNoComment_of_not_mem (by decide)

def redBlock : StyleBlock where
  gap := [' ']
  said := []
  last := " color: red ".toList
  blank := by decide
  passes := List.forall_mem_singleton.mpr (passesOver_of_all (by decide))
  uncommented := List.forall_mem_singleton.mpr (opensNoComment_of_not_mem (by decide))
  declares := by decide +kernel

def narrowMedia : KnownMedia where
  lead := "@media (max-width: 767px) ".toList
  breakpoint := "sp"
  passes := rfl
  uncommented := opensNoComment_of_not_mem (by decide)
  known := by decide +kernel

theorem brackets_ignored_iff_of_links :
    IgnoresBrackets ".c[title]:hover".toList ∧
      (homeLink.LandsPlain redBlock "" ∧ homeLink.LandsMedia redBlock narrowMedia "") ∧
        ¬ hoverLink.LandsPlain redBlock "" ∧ ¬ hoverLink.LandsMedia redBlock narrowMedia "" := by
  have home : homeLink.Contained := ⟨by decide, by decide⟩
  have hover : ¬ hoverLink.Contained := fun contained => contained.1 (by decide)
  obtain ⟨ignored, plain, media⟩ :=
    brackets_ignored_iff (· = "title".toList) homeLink redBlock narrowMedia ""
  obtain ⟨-, plain', media'⟩ :=
    brackets_ignored_iff (· = "title".toList) hoverLink redBlock narrowMedia ""
  refine ⟨ignored.mpr ?_ _ (by decide) fun t stands => ?_, ⟨plain.mpr home, media.mpr home⟩,
    mt plain'.mp hover, mt media'.mp hover⟩
  · rintro t - rfl
    exact isSilent_of_not_mem (by decide) (by decide) (by decide)
  · have front : NoBracket ".c".toList := ⟨by decide, by decide⟩
    have title : NoBracket "title".toList := ⟨by decide, by decide⟩
    have behind : NoBracket ":hover".toList := ⟨by decide, by decide⟩
    exact eq_of_standsInBrackets front title behind stands

/-- The end of an address is taken for a pseudo-class: outside media blocks the rule is filed
with hovering under another selector, and inside it is dropped. -/
theorem hover_in_address_heard :
    (¬ ∀ s, bracketsMatch false s = true → IgnoresBrackets s) ∧
      read ".c[href=\"a:hover\"] \x7b color: red \x7d" "" =
        { hover := [⟨".c[href=\"a\"]", .ofList [("color", "red")]⟩] } ∧
      read "@media (max-width: 767px) \x7b.c[href=\"a:hover\"] \x7b color: red \x7d\x7d" "" =
        ∅ := by
  refine ⟨fun always => ?_, by decide +kernel, by decide +kernel⟩
  have heard : tokens ".c[href=\"a:hover\"]".toList = tokens ".c[]".toList :=
    always _ (by decide)
  exact absurd heard (by decide +kernel)

end Links

end AuthoredStyle.Sheet
