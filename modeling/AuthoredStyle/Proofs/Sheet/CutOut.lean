import AuthoredStyle.Proofs.Sheet.Reads
import AuthoredStyle.Proofs.Sheet.Rereading

/-!
# Cutting blocks out of a sheet

Media blocks, keyframes and font faces are taken out of the text before its rule list is
read, and what is left is scanned again. As long as no closing brace stands outside all
blocks, the second scan finds the pieces of the first that were not taken out, so the
rule list is the one of the whole text: those blocks would have been passed over.
With such a brace the second scan may start inside parentheses that the first left
behind, and nothing is claimed.
-/

namespace AuthoredStyle.Sheet

/-! ## Places in a text -/

/-- Where the chosen pieces begin and end, the first piece beginning at `start`. -/
def spans (chosen : Piece → Bool) (start : Nat) : List Piece → List (Nat × Nat)
  | [] => []
  | p :: ps =>
    let stop := start + p.source.length
    if chosen p then (start, stop) :: spans chosen stop ps else spans chosen stop ps

/-- The text without the spans. The last one goes first, so that the places of the
others stay. -/
def removeSpans (text : List Char) (spans : List (Nat × Nat)) : List Char :=
  spans.foldr (fun span rest => rest.take span.1 ++ rest.drop span.2) text

theorem removeSpans_spans (chosen : Piece → Bool) (before : List Char) (ps : List Piece) :
    removeSpans (before ++ sources ps) (spans chosen before.length ps) =
      before ++ sources (ps.filter (!chosen ·)) := by
  induction ps generalizing before with
  | nil => rfl
  | cons p ps ih =>
    have later := ih (before ++ p.source)
    rw [List.length_append, List.append_assoc, List.append_assoc] at later
    rw [spans, sources]
    by_cases here : chosen p = true
    · have kept : (p :: ps).filter (!chosen ·) = ps.filter (!chosen ·) := by simp [here]
      have cut (rest : List Char) :
          (before ++ (p.source ++ rest)).drop (before.length + p.source.length) = rest := by
        rw [← List.append_assoc, ← List.length_append, List.drop_left]
      rw [if_pos here, kept, removeSpans, List.foldr_cons, ← removeSpans, later,
        List.take_left, cut]
    · have kept : (p :: ps).filter (!chosen ·) = p :: ps.filter (!chosen ·) := by simp [here]
      rw [if_neg here, kept, later, sources]

/-- Taking pieces out is removing their spans from the text. -/
theorem withoutCutOuts_eq (text : List Char) :
    withoutCutOuts text = removeSpans text (spans Piece.isCutOut 0 (pieces text)) := by
  have removed := removeSpans_spans Piece.isCutOut [] (pieces text)
  rw [List.nil_append, sources_pieces] at removed
  exact removed.symm

/-! ## Pieces that say nothing in a rule list -/

theorem isAtRule_of_leadsWith {word prelude : List Char}
    (h : Text.hasLead ('@' :: word) (Text.lower prelude) = true) : isAtRule prelude = true := by
  by_contra style
  rw [hasLead_lower word (by simpa using style)] at h
  cases h

theorem isAtRule_of_isDroppedAtRule {prelude : List Char} (h : isDroppedAtRule prelude = true) :
    isAtRule prelude = true := by
  by_contra style
  rw [isDroppedAtRule_style (by simpa using style)] at h
  cases h

variable {file : String}

theorem listedRules_of_isCutOut {p : Piece} (h : p.isCutOut = true) : p.listedRules file = ∅ := by
  cases p with
  | block lead body =>
    have media : leadsWith "@media" (Text.trim lead) = true → isAtRule (Text.trim lead) = true :=
      isAtRule_of_leadsWith
    have atRule : isAtRule (Text.trim lead) = true ∧ isOpaqueAtRule (Text.trim lead) = true := by
      rcases Bool.or_eq_true_iff.mp h with dropped | lone
      · exact ⟨isAtRule_of_isDroppedAtRule dropped, by simp [isOpaqueAtRule, dropped]⟩
      · exact ⟨media lone, by simp [isOpaqueAtRule, lone]⟩
    simp [Piece.listedRules, atRule]
  | statement | stray | unclosed => rfl

theorem listedRules_append (ps qs : List Piece) :
    listedRules file (ps ++ qs) = listedRules file ps ++ listedRules file qs := by
  induction ps with
  | nil => rfl
  | cons p ps ih => rw [List.cons_append, listedRules, listedRules, ih, RuleSet.append_assoc]

theorem listedRules_filter_isCutOut (ps : List Piece) :
    listedRules file (ps.filter (!·.isCutOut)) = listedRules file ps := by
  induction ps with
  | nil => rfl
  | cons p ps ih =>
    by_cases out : p.isCutOut = true
    · have nothing : p.listedRules file = ∅ := listedRules_of_isCutOut out
      simp [out, ih, listedRules, nothing]
    · simp [out, ih, listedRules]

/-- A second scan of what is left finds what the first one left. -/
theorem pieces_withoutCutOuts {text : List Char} (within : ClosesWithin (pieces text)) :
    pieces (withoutCutOuts text) = (pieces text).filter (!·.isCutOut) := by
  have again : CutsAgain ((pieces text).filter (!·.isCutOut)) := by
    refine (cutsAgain_pieces within).filter fun p noBlock => ?_
    cases p with
    | block => cases noBlock
    | statement | stray | unclosed => rfl
  exact again.pieces_sources

/-- Cutting blocks out by their places, the last first, and scanning the rest neither
loses nor changes another piece. The rules of a sheet outside its media bucket are those
of its whole rule list, and what stands in a media block is not among them. -/
theorem cutting_out_keeps_listed_rules (text file : String)
    (within : ClosesWithin (pieces (dropComments text.toList))) :
    let plainText := dropComments text.toList
    let direct := listedRules file (pieces plainText)
    (read text file).plain = direct.plain ∧ (read text file).pseudo = direct.pseudo ∧
      (read text file).hover = direct.hover ∧
      withoutCutOuts plainText = removeSpans plainText (spans Piece.isCutOut 0 (pieces plainText)) ∧
      pieces (withoutCutOuts plainText) = (pieces plainText).filter (!·.isCutOut) ∧
      ∀ front lead body back, pieces plainText = front ++ .block lead body :: back →
        leadsWith "@media" (Text.trim lead) = true → direct = listedRules file (front ++ back) := by
  intro plainText direct
  have rescanned : pieces (withoutCutOuts plainText) = (pieces plainText).filter (!·.isCutOut) :=
    pieces_withoutCutOuts within
  have listed : listedRules file (pieces (withoutCutOuts plainText)) = direct := by
    rw [rescanned, listedRules_filter_isCutOut]
  have whole : read text file = { media := (pieces plainText).flatMap Piece.mediaRules } ++ direct := by
    rw [read, listed]
  refine ⟨?_, ?_, ?_, withoutCutOuts_eq plainText, rescanned, ?_⟩
  · rw [whole]
    rfl
  · rw [whole]
    rfl
  · rw [whole]
    rfl
  · intro front lead body back split media
    have out : (Piece.block lead body).isCutOut = true := by simp [Piece.isCutOut, media]
    have nothing : (Piece.block lead body).listedRules file = ∅ := listedRules_of_isCutOut out
    have here : direct = listedRules file (front ++ .block lead body :: back) :=
      congrArg (listedRules file) split
    rw [here, listedRules_append, listedRules, nothing, RuleSet.empty_append, listedRules_append]

/-- A media block between two rules, behind a semicolon that ends nothing. -/
def noteSheet : String :=
  ".note\x7bcolor:red\x7d;@media print\x7b.note\x7btop:0\x7d\x7d.note:hover\x7btop:0\x7d"

theorem cutting_out_keeps_listed_rules_of_note :
    ClosesWithin (pieces (dropComments noteSheet.toList)) ∧
      (read noteSheet "").plain.map (·.selector) = [".note"] ∧
      (read noteSheet "").hover.map (·.selector) = [".note"] := by
  have within : ClosesWithin (pieces (dropComments noteSheet.toList)) := by decide +kernel
  obtain ⟨plain, -, hover, -⟩ := cutting_out_keeps_listed_rules noteSheet "" within
  rw [plain, hover]
  exact ⟨within, by decide +kernel, by decide +kernel⟩

end AuthoredStyle.Sheet
