import AuthoredStyle.Proofs.Sheet.Concatenation
import AuthoredStyle.Proofs.Sheet.Enclosed

/-!
# Emptied blocks

No rule comes from the body of a dropped at-rule, at whatever depth it stands, so the rules of
a sheet are those of its pieces with these bodies emptied. Two scans that differ in such bodies
alone stay so, and so do the scans of what is left behind the blocks that are cut out.
-/

namespace AuthoredStyle.Sheet

/-! ## Pieces -/

mutual

/-- The piece without what stands in dropped at-rules. -/
def Piece.emptied : Piece → Piece
  | .block lead body =>
    if isDroppedAtRule (Text.trim lead) then .block lead [] else .block lead (emptied body)
  | .unclosed lead body => .unclosed lead (emptied body)
  | .statement text ended => .statement text ended
  | .stray text => .stray text

def emptied : List Piece → List Piece
  | [] => []
  | p :: ps => p.emptied :: emptied ps

end

theorem emptied_eq_map (ps : List Piece) : emptied ps = ps.map Piece.emptied := by
  induction ps with
  | nil => rfl
  | cons p ps ih => rw [emptied, ih, List.map_cons]

/-- Only bodies are emptied. -/
theorem emptied_block (lead : List Char) (body : List Piece) :
    ∃ inner, (Piece.block lead body).emptied = .block lead inner := by
  rw [Piece.emptied]
  split
  · exact ⟨[], rfl⟩
  · exact ⟨emptied body, rfl⟩

/-- Pieces that are emptied alike differ in what stands between their braces. -/
theorem eq_of_emptied_eq {p q : Piece} (same : p.emptied = q.emptied) :
    (∃ lead body body', p = .block lead body ∧ q = .block lead body') ∨
      (∃ lead body body', p = .unclosed lead body ∧ q = .unclosed lead body') ∨ p = q := by
  cases p with
  | block lead body =>
    obtain ⟨inner, here⟩ := emptied_block lead body
    rw [here] at same
    cases q with
    | block lead' body' =>
      obtain ⟨inner', there⟩ := emptied_block lead' body'
      rw [there] at same
      exact .inl ⟨lead, body, body', rfl, by rw [(Piece.block.inj same).1]⟩
    | statement | stray | unclosed => cases same
  | unclosed lead body =>
    cases q with
    | unclosed lead' body' =>
      exact .inr (.inl ⟨lead, body, body', rfl, by rw [(Piece.unclosed.inj same).1]⟩)
    | block lead' body' =>
      obtain ⟨inner', there⟩ := emptied_block lead' body'
      rw [there] at same
      cases same
    | statement | stray => cases same
  | statement | stray =>
    cases q with
    | block lead' body' =>
      obtain ⟨inner', there⟩ := emptied_block lead' body'
      rw [there] at same
      cases same
    | statement | stray => exact .inr (.inr same)
    | unclosed => cases same

/-- Blocks with the same front are emptied alike if their bodies are or if they are dropped. -/
theorem emptied_block_congr {lead : List Char} {body body' : List Piece}
    (same : isDroppedAtRule (Text.trim lead) = true ∨ emptied body = emptied body') :
    (Piece.block lead body).emptied = (Piece.block lead body').emptied := by
  rw [Piece.emptied, Piece.emptied]
  rcases same with dropped | same
  · rw [if_pos dropped, if_pos dropped]
  · rw [same]

theorem isCutOut_emptied (p : Piece) : p.emptied.isCutOut = p.isCutOut := by
  cases p with
  | block lead body =>
    obtain ⟨inner, same⟩ := emptied_block lead body
    rw [same]
    rfl
  | statement | stray | unclosed => rfl

theorem statement?_emptied (p : Piece) : p.emptied.statement? = p.statement? := by
  cases p with
  | block lead body =>
    obtain ⟨inner, same⟩ := emptied_block lead body
    rw [same]
    rfl
  | statement | stray | unclosed => rfl

theorem statements_emptied (ps : List Piece) : statements (emptied ps) = statements ps := by
  rw [statements, emptied_eq_map, List.filterMap_map, statements]
  exact List.filterMap_congr fun p _ => statement?_emptied p

/-! ## Rules -/

section Rules

variable (file : String)

theorem ownRules_emptied (selectors : List (List Char)) (body : List Piece) :
    ownRules selectors (emptied body) file = ownRules selectors body file := by
  rw [ownRules, ownRules, statements_emptied]

mutual

theorem styleRules_emptied (parents : List (List Char)) :
    (p : Piece) → p.emptied.styleRules file parents = p.styleRules file parents
  | .block lead body => by
    rw [Piece.emptied]
    split
    · rename_i dropped
      simp [Piece.styleRules, isAtRule_of_isDroppedAtRule dropped]
    · simp only [Piece.styleRules, ownRules_emptied, nestedRules_emptied]
  | .statement .. | .stray .. | .unclosed .. => rfl

theorem nestedRules_emptied (parents : List (List Char)) :
    (ps : List Piece) → nestedRules file parents (emptied ps) = nestedRules file parents ps
  | [] => rfl
  | p :: ps => by
    rw [emptied, nestedRules, nestedRules, styleRules_emptied parents p,
      nestedRules_emptied parents ps]

end

mutual

theorem Piece.listedRules_emptied :
    (p : Piece) → p.emptied.listedRules file = p.listedRules file
  | .block lead body => by
    rw [Piece.emptied]
    split
    · rename_i dropped
      simp [Piece.listedRules, isAtRule_of_isDroppedAtRule dropped, isOpaqueAtRule, dropped]
    · simp only [Piece.listedRules, Piece.styleRules, ownRules_emptied, nestedRules_emptied,
        listedRules_emptied body]
  | .statement .. | .stray .. | .unclosed .. => rfl

theorem listedRules_emptied :
    (ps : List Piece) → listedRules file (emptied ps) = listedRules file ps
  | [] => rfl
  | p :: ps => by
    rw [emptied, listedRules, listedRules, Piece.listedRules_emptied p, listedRules_emptied ps]

end

theorem breakpointRules_emptied (breakpoint : String) (p : Piece) :
    p.emptied.breakpointRules breakpoint = p.breakpointRules breakpoint := by
  cases p with
  | block lead body =>
    rw [Piece.emptied]
    split
    · rename_i dropped
      simp [Piece.breakpointRules, isAtRule_of_isDroppedAtRule dropped]
    · simp only [Piece.breakpointRules, statements_emptied]
  | statement | stray | unclosed => rfl

theorem isDroppedAtRule_lower (prelude : List Char) :
    isDroppedAtRule (Text.lower prelude) = isDroppedAtRule prelude := by
  simp only [isDroppedAtRule, leadsWith, Text.lower_lower]

theorem mediaRules_emptied (p : Piece) : p.emptied.mediaRules = p.mediaRules := by
  cases p with
  | block lead body =>
    rw [Piece.emptied]
    split
    · rename_i dropped
      simp [Piece.mediaRules, isDroppedAtRule_lower, dropped]
    · simp only [Piece.mediaRules, emptied_eq_map, List.flatMap_map, breakpointRules_emptied]
  | statement | stray | unclosed => rfl

end Rules

/-! ## Scans -/

def Frame.emptied (f : Frame) : Frame := ⟨Sheet.emptied f.before, f.lead⟩

theorem emptied_append (ps qs : List Piece) : emptied (ps ++ qs) = emptied ps ++ emptied qs := by
  simp only [emptied_eq_map, List.map_append]

theorem emptied_reverse (ps : List Piece) : emptied ps.reverse = (emptied ps).reverse := by
  simp only [emptied_eq_map, List.map_reverse]

theorem emptied_cutOff (frames : List Frame) (inner : List Piece) :
    emptied (Scan.cutOff frames inner) =
      Scan.cutOff (frames.map Frame.emptied) (emptied inner) := by
  induction frames generalizing inner with
  | nil => rfl
  | cons f outer ih =>
    rw [Scan.cutOff, ih, List.map_cons, Scan.cutOff, emptied_append, emptied_reverse]
    rfl

/-- The scans differ in bodies of dropped at-rules alone. -/
structure Twin (s t : Scan) : Prop where
  frames : s.frames.map Frame.emptied = t.frames.map Frame.emptied
  done : emptied s.done = emptied t.done
  segment : s.segment = t.segment
  parens : s.parens = t.parens
  reading : s.reading = t.reading

namespace Twin

variable {s t : Scan}

theorem refl (s : Scan) : Twin s s := ⟨rfl, rfl, rfl, rfl, rfl⟩

theorem body (h : Twin s t) : emptied s.body = emptied t.body := by
  rw [Scan.body, Scan.body, emptied_reverse, emptied_reverse, emptied, emptied, h.done, h.segment]

theorem finish (h : Twin s t) : emptied s.finish = emptied t.finish := by
  rw [Scan.finish, Scan.finish, emptied_cutOff, emptied_cutOff, h.frames, h.body]

theorem push (h : Twin s t) {p q : Piece} (same : p.emptied = q.emptied) :
    Twin { s with done := p :: s.done, segment := [], parens := 0 }
      { t with done := q :: t.done, segment := [], parens := 0 } := by
  refine ⟨h.frames, ?_, rfl, rfl, h.reading⟩
  rw [emptied, emptied, same, h.done]

theorem closeBlock (h : Twin s t) : Twin s.closeBlock t.closeBlock := by
  have frames := h.frames
  rw [Scan.closeBlock, Scan.closeBlock]
  cases framed : s.frames with
  | nil =>
    rw [framed] at frames
    rw [List.map_eq_nil_iff.mp frames.symm]
    refine ⟨rfl, ?_, rfl, h.parens, h.reading⟩
    rw [emptied, emptied, h.done, h.segment]
  | cons f outer =>
    rw [framed, List.map_cons] at frames
    obtain ⟨g, outer', framed', same, rest⟩ := List.map_eq_cons_iff.mp frames.symm
    obtain ⟨before, lead⟩ := Frame.mk.inj same
    rw [framed']
    refine ⟨rest.symm, ?_, rfl, rfl, h.reading⟩
    rw [emptied, emptied, before, lead, emptied_block_congr (.inr h.body)]

theorem step (h : Twin s t) (c : Char) : Twin (s.step c) (t.step c) := by
  rcases s.step_cases c with
    ⟨_, _, keeps⟩ | ⟨rfl, idle, ends⟩ | ⟨rfl, bare, opens⟩ | ⟨rfl, bare, closes⟩
  · rw [keeps s rfl rfl, keeps t h.parens.symm h.reading.symm]
    exact ⟨h.frames, h.done, congrArg (c :: ·) h.segment, rfl, rfl⟩
  · have idle' : t.Idle := ⟨h.parens.symm.trans idle.1, h.reading.symm.trans idle.2⟩
    rw [ends, Scan.step_semicolon idle']
    refine ⟨h.frames, ?_, rfl, h.parens, h.reading⟩
    rw [Scan.endStatement, Scan.endStatement, emptied, emptied, h.done, h.segment]
  · rw [opens, Scan.step_opening (h.reading.symm.trans bare)]
    refine ⟨?_, rfl, rfl, rfl, h.reading⟩
    rw [Scan.openBlock, Scan.openBlock, List.map_cons, List.map_cons, h.frames, Frame.emptied,
      Frame.emptied, h.done, h.segment]
  · rw [closes, Scan.step_closing (h.reading.symm.trans bare)]
    exact h.closeBlock

theorem run (h : Twin s t) (text : List Char) : Twin (s.run text) (t.run text) := by
  induction text generalizing s t with
  | nil => exact h
  | cons c text ih => exact ih (h.step c)

/-- Enclosed bodies that are emptied alike or that are dropped make twins of twins. -/
theorem block (h : Twin s t) (bare : s.reading = .bare) {body body' : List Char}
    (enclosed : Enclosed body) (enclosed' : Enclosed body')
    (same : isDroppedAtRule (Text.trim s.segment.reverse) = true ∨
      emptied (pieces body) = emptied (pieces body')) :
    Twin (s.run ('{' :: (body ++ ['}']))) (t.run ('{' :: (body' ++ ['}']))) := by
  rw [Scan.run_block bare enclosed, Scan.run_block (h.reading.symm.trans bare) enclosed',
    ← h.segment]
  exact h.push (emptied_block_congr same)

theorem whole (h : Twin s t) (bare : s.reading = .bare) {p q : Piece} (hp : Whole p) (hq : Whole q)
    (same : p.emptied = q.emptied) (stays : p.isCutOut = false) :
    Twin (s.run p.source) (t.run q.source) := by
  rcases eq_of_emptied_eq same with ⟨lead, _, _, rfl, rfl⟩ | ⟨lead, _, _, rfl, rfl⟩ | rfl
  · obtain _ | _ | ⟨ends, enclosed⟩ := hp
    obtain _ | _ | ⟨-, enclosed'⟩ := hq
    have kept : isDroppedAtRule (Text.trim lead) ≠ true := by
      intro dropped
      simp [Piece.isCutOut, dropped] at stays
    have led : (s.run lead).reading = .bare := by rw [Scan.reading_run, bare, ends]
    rw [Piece.emptied, Piece.emptied, if_neg kept, if_neg kept] at same
    rw [Piece.source, Piece.source, sources_pieces, sources_pieces, Scan.run_append,
      Scan.run_append]
    exact (h.run lead).block led enclosed enclosed' (.inr (Piece.block.inj same).2)
  · cases hp
  · exact h.run _

theorem sources (h : Twin s t) (bare : s.reading = .bare) {ps qs : List Piece}
    (hps : ∀ p ∈ ps, Whole p) (hqs : ∀ q ∈ qs, Whole q) (same : emptied ps = emptied qs)
    (stay : ∀ p ∈ ps, p.isCutOut = false) :
    Twin (s.run (sources ps)) (t.run (sources qs)) ∧ (s.run (sources ps)).reading = .bare := by
  induction ps generalizing s t qs with
  | nil =>
    cases qs with
    | nil => exact ⟨h, bare⟩
    | cons q qs => cases same
  | cons p ps ih =>
    cases qs with
    | nil => cases same
    | cons q qs =>
      obtain ⟨first, rest⟩ := List.cons.inj same
      obtain ⟨hp, hps⟩ := List.forall_mem_cons.mp hps
      obtain ⟨hq, hqs⟩ := List.forall_mem_cons.mp hqs
      obtain ⟨stays, stay⟩ := List.forall_mem_cons.mp stay
      have bare' : (s.run p.source).reading = .bare := by
        rw [Scan.reading_run, bare, hp.after_source]
      rw [Sheet.sources, Sheet.sources, Scan.run_append, Scan.run_append]
      exact ih (h.whole bare hp hq first stays) bare' hps hqs rest stay

theorem last (h : Twin s t) (bare : s.reading = .bare) {p q : Piece} (hp : Last p) (hq : Last q)
    (same : p.emptied = q.emptied) :
    emptied (s.run p.source).finish = emptied (t.run q.source).finish := by
  rcases eq_of_emptied_eq same with ⟨lead, _, _, rfl, rfl⟩ | ⟨lead, _, _, rfl, rfl⟩ | rfl
  · cases hp
  · obtain _ | ⟨ends, unstrayed⟩ := hp
    obtain _ | ⟨-, unstrayed'⟩ := hq
    have inner := (Piece.unclosed.inj same).2
    have led := h.run lead
    have bare' : (s.run lead).reading = .bare := by rw [Scan.reading_run, bare, ends]
    rw [Piece.source, Piece.source, sources_pieces, sources_pieces, Scan.run_append,
      Scan.run_append, Scan.finish_unclosed bare' unstrayed,
      Scan.finish_unclosed (led.reading.symm.trans bare') unstrayed', emptied_cutOff,
      emptied_cutOff, led.frames, emptied_append, emptied_append, emptied_reverse,
      emptied_reverse, led.done, led.segment]
    simp only [emptied, Piece.emptied, inner]
  · exact (h.run _).finish

end Twin

/-! ## Texts -/

section Texts

variable {a b : List Char}

theorem emptied_filter_isCutOut (ps : List Piece) :
    emptied (ps.filter (!·.isCutOut)) = (emptied ps).filter (!·.isCutOut) := by
  rw [emptied_eq_map, emptied_eq_map, List.filter_map]
  congr 1
  exact List.filter_congr fun p _ => by rw [Function.comp_apply, isCutOut_emptied]

/-- What is left behind the blocks that are cut out is emptied alike if the texts are. -/
theorem emptied_withoutCutOuts (same : emptied (pieces a) = emptied (pieces b)) :
    emptied (pieces (withoutCutOuts a)) = emptied (pieces (withoutCutOuts b)) := by
  obtain ⟨front, last, cut, whole, ends⟩ := exists_whole_last a
  obtain ⟨front', last', cut', whole', ends'⟩ := exists_whole_last b
  have kept {p : Piece} (h : Last p) : p.isCutOut = false := by cases h <;> rfl
  have left {text : List Char} {front : List Piece} {last : Piece}
      (cut : pieces text = front ++ [last]) (h : Last last) :
      (pieces text).filter (!·.isCutOut) = front.filter (!·.isCutOut) ++ [last] := by
    rw [cut, List.filter_append, List.filter_cons, kept h]
    rfl
  have both := congrArg (List.filter (!·.isCutOut)) same
  rw [← emptied_filter_isCutOut, ← emptied_filter_isCutOut, left cut ends, left cut' ends',
    emptied_append, emptied_append] at both
  obtain ⟨fronts, lasts⟩ := List.append_inj' both rfl
  have within {ps : List Piece} (h : ∀ p ∈ ps, Whole p) :
      ∀ p ∈ ps.filter (!·.isCutOut), Whole p := fun p hp => h p (List.mem_filter.mp hp).1
  obtain ⟨twins, bare⟩ := (Twin.refl {}).sources rfl (within whole) (within whole') fronts
    fun p hp => by simpa using (List.mem_filter.mp hp).2
  have single (p : Piece) : sources [p] = p.source := by rw [sources, sources, List.append_nil]
  rw [withoutCutOuts, withoutCutOuts, left cut ends, left cut' ends', pieces, pieces,
    sources_append, sources_append, single, single, Scan.run_append, Scan.run_append]
  exact twins.last bare ends ends' (List.cons.inj lasts).1

/-- Texts that are emptied alike read alike. -/
theorem readPlain_eq_of_emptied_eq (same : emptied (pieces a) = emptied (pieces b)) (file : String) :
    readPlain a file = readPlain b file := by
  have media (ps : List Piece) :
      (emptied ps).flatMap Piece.mediaRules = ps.flatMap Piece.mediaRules := by
    rw [emptied_eq_map, List.flatMap_map]
    exact List.flatMap_congr fun p _ => mediaRules_emptied p
  rw [readPlain, readPlain, ← media, same, media, ← listedRules_emptied file,
    emptied_withoutCutOuts same, listedRules_emptied]

end Texts

end AuthoredStyle.Sheet
