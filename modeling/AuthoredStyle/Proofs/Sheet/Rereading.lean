import AuthoredStyle.Proofs.Sheet.Passing

/-!
# Pieces that are cut again

The pieces of a text keep all its characters, but scanning them once more need not
cut them at the same places: a closing brace that closes nothing leaves parentheses
open, and what stands behind it may be cut otherwise from a fresh start. Without such
a brace every piece is cut from its own text wherever it stands between pieces. So
pieces can be taken out or put elsewhere, and the others are still found.
-/

namespace AuthoredStyle.Sheet

/-- Scanned alone, the text is kept whole and leaves parentheses and quotes so. -/
def Kept (text : List Char) (parens : Nat) (reading : Reading) : Prop :=
  Scan.run {} text = { segment := text.reverse, parens := parens, reading := reading }

theorem Kept.run {text : List Char} {parens : Nat} {reading : Reading}
    (h : Kept text parens reading) {s : Scan} (idle : s.Idle) :
    s.run text =
      { s with segment := text.reverse ++ s.segment, parens := parens, reading := reading } := by
  have uncut : (Scan.run {} text).Uncut := by
    rw [h]
    exact ⟨rfl, rfl⟩
  rw [Scan.run_elsewhere uncut idle.1 idle.2, h]

/-- Between two pieces. -/
def Scan.AtBorder (s : Scan) : Prop := s.Idle ∧ s.segment = []

/-- From its own text the piece is cut wherever a piece may start. -/
def CutsAlone (p : Piece) : Prop :=
  ∀ s : Scan, s.AtBorder → s.run p.source = { s with done := p :: s.done }

/-- From its own text the piece is cut where the whole text ends with it. -/
def CutsLast (p : Piece) : Prop :=
  ∀ s : Scan, s.AtBorder →
    (s.run p.source).finish = Scan.cutOff s.frames (s.done.reverse ++ [p])

namespace Scan

theorem run_cons (s : Scan) (c : Char) (text : List Char) :
    s.run (c :: text) = (s.step c).run text := rfl

theorem run_sources {ps : List Piece} (h : ∀ p ∈ ps, CutsAlone p) {s : Scan} (border : s.AtBorder) :
    s.run (sources ps) = { s with done := ps.reverse ++ s.done } := by
  induction ps generalizing s with
  | nil => rfl
  | cons p ps ih =>
    have first := h p List.mem_cons_self s border
    have later := ih (fun q hq => h q (List.mem_cons_of_mem p hq))
      (s := { s with done := p :: s.done }) border
    rw [sources, run_append, first, later]
    simp

theorem step_semicolon {s : Scan} (idle : s.Idle) : s.step ';' = s.endStatement := by
  rw [step_bare ';' idle.2]
  simp [idle.1]

theorem step_opening {s : Scan} (bare : s.reading = .bare) : s.step '{' = s.openBlock := by
  rw [step_bare '{' bare]
  simp

theorem step_closing {s : Scan} (bare : s.reading = .bare) : s.step '}' = s.closeBlock := by
  rw [step_bare '}' bare]
  simp

/-- Up to the inside of a block, and over the pieces at its start. -/
theorem run_opening {lead : List Char} {parens : Nat} (kept : Kept lead parens .bare)
    {ps : List Piece} (h : ∀ p ∈ ps, CutsAlone p) {s : Scan} (border : s.AtBorder)
    (text : List Char) :
    s.run (lead ++ '{' :: (sources ps ++ text)) =
      run { s with
        frames := ⟨s.done, lead⟩ :: s.frames, done := ps.reverse, segment := [], parens := 0 } text := by
  obtain ⟨idle, start⟩ := border
  have led := kept.run idle
  rw [start, List.append_nil, ← idle.2] at led
  have opens := step_opening (s := { s with segment := lead.reverse, parens := parens }) idle.2
  have inside := run_sources h (s := openBlock { s with segment := lead.reverse, parens := parens })
    ⟨⟨rfl, idle.2⟩, rfl⟩
  rw [run_append, led, run_cons, opens, run_append, inside]
  simp [openBlock]

end Scan

section Pieces

variable {lead text : List Char} {parens parens' : Nat} {reading : Reading} {ps : List Piece}

theorem cutsAlone_statement (kept : PassesOver text) : CutsAlone (.statement text true) := by
  intro s border
  obtain ⟨idle, start⟩ := border
  have through := kept.run idle
  rw [start, List.append_nil] at through
  have ends := Scan.step_semicolon (s := { s with segment := text.reverse }) idle
  have source : (Piece.statement text true).source = text ++ [';'] := rfl
  rw [source, Scan.run_append, through, Scan.run_cons, ends]
  cases s
  simp_all [Scan.run, Scan.endStatement]

theorem cutsAlone_block (led : Kept lead parens .bare) (h : ∀ p ∈ ps, CutsAlone p)
    (kept : Kept text parens' .bare) :
    CutsAlone (.block lead (ps ++ [.statement text false])) := by
  intro s border
  let inside : Scan :=
    { s with frames := ⟨s.done, lead⟩ :: s.frames, done := ps.reverse, segment := [], parens := 0 }
  have source : (Piece.block lead (ps ++ [.statement text false])).source =
      lead ++ '{' :: (sources ps ++ (text ++ ['}'])) := by
    simp [Piece.source, sources_append, sources]
  have through := kept.run (s := inside) ⟨rfl, border.1.2⟩
  have closes := Scan.step_closing (s := inside.run text) (by rw [through])
  rw [source, Scan.run_opening led h border, Scan.run_append, Scan.run_cons, closes, through]
  obtain ⟨⟨none, bare⟩, start⟩ := border
  cases s
  simp_all [Scan.run, Scan.closeBlock, Scan.body, inside]

theorem cutsLast_statement (kept : Kept text parens reading) :
    CutsLast (.statement text false) := by
  intro s border
  have source : (Piece.statement text false).source = text := rfl
  rw [source, kept.run border.1]
  simp [Scan.finish, Scan.body, border.2]

theorem cutsLast_unclosed {last : Piece} (led : Kept lead parens .bare)
    (h : ∀ p ∈ ps, CutsAlone p) (ends : CutsLast last) :
    CutsLast (.unclosed lead (ps ++ [last])) := by
  intro s border
  let inside : Scan :=
    { s with frames := ⟨s.done, lead⟩ :: s.frames, done := ps.reverse, segment := [], parens := 0 }
  have source : (Piece.unclosed lead (ps ++ [last])).source =
      lead ++ '{' :: (sources ps ++ last.source) := by
    simp [Piece.source, sources_append, sources]
  have rest := ends inside ⟨⟨rfl, border.1.2⟩, rfl⟩
  rw [source, Scan.run_opening led h border, rest]
  simp [Scan.cutOff, inside]

end Pieces

/-- All but the last are cut alone, and the last, which is no closed block, where the
text ends. -/
def CutsAgain (ps : List Piece) : Prop :=
  ∃ front last, ps = front ++ [last] ∧ (∀ p ∈ front, CutsAlone p) ∧ CutsLast last ∧
    last.prelude? = none

theorem CutsAgain.pieces_sources {ps : List Piece} (h : CutsAgain ps) :
    pieces (sources ps) = ps := by
  obtain ⟨front, last, rfl, alone, ends, -⟩ := h
  have border : Scan.AtBorder {} := ⟨⟨rfl, rfl⟩, rfl⟩
  have passed := Scan.run_sources alone border
  have rest := ends (Scan.run {} (sources front)) (by rw [passed]; exact border)
  have whole : sources (front ++ [last]) = sources front ++ last.source := by
    simp [sources_append, sources]
  rw [pieces, whole, Scan.run_append, rest, passed]
  simp [Scan.cutOff]

/-- Blocks may be left out. -/
theorem CutsAgain.filter {ps : List Piece} (h : CutsAgain ps) {keep : Piece → Bool}
    (others : ∀ p : Piece, p.prelude? = none → keep p = true) : CutsAgain (ps.filter keep) := by
  obtain ⟨front, last, rfl, alone, ends, noBlock⟩ := h
  refine ⟨front.filter keep, last, ?_, ?_, ends, noBlock⟩
  · simp [others last noBlock]
  · intro p hp
    exact alone p (List.mem_filter.mp hp).1

/-! ## What a scan has cut -/

def Piece.isStray : Piece → Bool
  | .stray _ => true
  | .statement .. | .block .. | .unclosed .. => false

/-- Each closing brace outside all blocks closes one. -/
def ClosesWithin (ps : List Piece) : Prop := ∀ p ∈ ps, p.isStray = false

instance : DecidablePred ClosesWithin := fun _ => inferInstanceAs (Decidable (∀ _ ∈ _, _))

structure Frame.Fresh (f : Frame) : Prop where
  before : ∀ p ∈ f.before, CutsAlone p
  lead : ∃ parens, Kept f.lead parens .bare

/-- All that has been cut is cut again, and so is the text behind it. -/
structure Scan.Fresh (s : Scan) : Prop where
  done : ∀ p ∈ s.done, CutsAlone p
  segment : Kept s.segment.reverse s.parens s.reading
  frames : ∀ f ∈ s.frames, f.Fresh

namespace Scan

/-- The pieces outside all blocks, latest first. -/
def outermost : List Frame → List Piece → List Piece
  | [], done => done
  | f :: outer, _ => outermost outer f.before

def Unstrayed (s : Scan) : Prop := ClosesWithin (outermost s.frames s.done)

theorem outermost_suffix_cons (frames : List Frame) (p : Piece) (done : List Piece) :
    outermost frames done <:+ outermost frames (p :: done) := by
  cases frames with
  | nil => exact List.suffix_cons p done
  | cons f outer => exact List.suffix_refl _

theorem outermost_step (s : Scan) (c : Char) :
    outermost s.frames s.done <:+ outermost (s.step c).frames (s.step c).done := by
  rcases s.step_cases c with
    ⟨parens, reading, keeps⟩ | ⟨-, -, ends⟩ | ⟨-, -, opens⟩ | ⟨-, -, closes⟩
  · rw [keeps s rfl rfl]
    exact List.suffix_refl _
  · rw [ends]
    exact outermost_suffix_cons s.frames _ s.done
  · rw [opens]
    exact List.suffix_refl _
  · rw [closes, closeBlock]
    cases s.frames with
    | nil => exact List.suffix_cons _ s.done
    | cons f outer => exact outermost_suffix_cons outer _ f.before

theorem Unstrayed.of_step {s : Scan} {c : Char} (h : (s.step c).Unstrayed) : s.Unstrayed :=
  fun p hp => h p ((outermost_step s c).subset hp)

theorem Unstrayed.of_run {s : Scan} {text : List Char} (h : (s.run text).Unstrayed) :
    s.Unstrayed := by
  induction text generalizing s with
  | nil => exact h
  | cons c text ih => exact (ih h).of_step

theorem Unstrayed.frames_ne_nil {s : Scan} (h : s.closeBlock.Unstrayed) : s.frames ≠ [] := by
  intro none
  have strays : s.closeBlock = { s with done := .stray s.segment.reverse :: s.done, segment := [] } := by
    rw [closeBlock, none]
  rw [strays] at h
  have met := h (.stray s.segment.reverse) (by simp [outermost, none])
  cases met

theorem fresh_start : Fresh {} where
  done := fun _ hp => absurd hp List.not_mem_nil
  segment := rfl
  frames := fun _ hf => absurd hf List.not_mem_nil

theorem Fresh.endStatement {s : Scan} (h : s.Fresh) (idle : s.Idle) : s.endStatement.Fresh where
  done := by
    have passes : PassesOver s.segment.reverse := by
      have kept := h.segment
      rwa [idle.1, idle.2] at kept
    intro p hp
    rcases List.mem_cons.mp hp with rfl | hp
    · exact cutsAlone_statement passes
    · exact h.done p hp
  segment := by
    rw [show s.endStatement.parens = 0 from idle.1, show s.endStatement.reading = .bare from idle.2]
    rfl
  frames := h.frames

theorem Fresh.openBlock {s : Scan} (h : s.Fresh) (bare : s.reading = .bare) :
    s.openBlock.Fresh where
  done := fun _ hp => absurd hp List.not_mem_nil
  segment := by
    rw [show s.openBlock.reading = .bare from bare]
    rfl
  frames := by
    have lead : Kept s.segment.reverse s.parens .bare := by
      have kept := h.segment
      rwa [bare] at kept
    intro f hf
    rcases List.mem_cons.mp hf with rfl | hf
    · exact ⟨h.done, s.parens, lead⟩
    · exact h.frames f hf

theorem Fresh.closeBlock {s : Scan} (h : s.Fresh) (bare : s.reading = .bare)
    (unstrayed : s.closeBlock.Unstrayed) : s.closeBlock.Fresh := by
  obtain ⟨f, outer, framed⟩ := List.exists_cons_of_ne_nil unstrayed.frames_ne_nil
  have closed : s.closeBlock =
      { s with
        frames := outer, done := .block f.lead s.body :: f.before, segment := [], parens := 0 } := by
    rw [Scan.closeBlock, framed]
  have frames := h.frames
  rw [framed] at frames
  obtain ⟨before, parens, lead⟩ := frames f List.mem_cons_self
  have inside : Kept s.segment.reverse s.parens .bare := by
    have kept := h.segment
    rwa [bare] at kept
  rw [closed]
  refine ⟨?_, ?_, fun g hg => frames g (List.mem_cons_of_mem f hg)⟩
  · intro p hp
    rcases List.mem_cons.mp hp with rfl | hp
    · have earlier : ∀ q ∈ s.done.reverse, CutsAlone q := fun q hq =>
        h.done q (List.mem_reverse.mp hq)
      have alone := cutsAlone_block lead earlier inside
      rwa [body, List.reverse_cons]
    · exact before p hp
  · simp only [bare]
    rfl

theorem Fresh.step {s : Scan} (h : s.Fresh) {c : Char} (unstrayed : (s.step c).Unstrayed) :
    (s.step c).Fresh := by
  rcases s.step_cases c with
    ⟨parens, reading, keeps⟩ | ⟨-, idle, ends⟩ | ⟨-, bare, opens⟩ | ⟨-, bare, closes⟩
  · rw [keeps s rfl rfl]
    refine ⟨h.done, ?_, h.frames⟩
    have onward := keeps (Scan.run {} s.segment.reverse) (by rw [h.segment]) (by rw [h.segment])
    have last (t : Scan) : t.run [c] = t.step c := rfl
    simp only [keep, List.reverse_cons, Kept]
    rw [run_append, last, onward, h.segment]
    simp [keep]
  · rw [ends]
    exact h.endStatement idle
  · rw [opens]
    exact h.openBlock bare
  · rw [closes] at unstrayed ⊢
    exact h.closeBlock bare unstrayed

theorem Fresh.run {s : Scan} (h : s.Fresh) {text : List Char}
    (unstrayed : (s.run text).Unstrayed) : (s.run text).Fresh := by
  induction text generalizing s with
  | nil => exact h
  | cons c text ih =>
    have later : ((s.step c).run text).Unstrayed := unstrayed
    exact ih (h.step later.of_run) later

theorem cutsAgain_cutOff {frames : List Frame} (fresh : ∀ f ∈ frames, f.Fresh)
    {inner : List Piece} (h : CutsAgain inner) : CutsAgain (cutOff frames inner) := by
  induction frames generalizing inner with
  | nil => exact h
  | cons f outer ih =>
    obtain ⟨before, parens, lead⟩ := fresh f List.mem_cons_self
    obtain ⟨front, last, rfl, alone, ends, -⟩ := h
    refine ih (fun g hg => fresh g (List.mem_cons_of_mem f hg)) ?_
    refine ⟨f.before.reverse, _, rfl, ?_, cutsLast_unclosed lead alone ends, rfl⟩
    intro p hp
    exact before p (List.mem_reverse.mp hp)

theorem Fresh.cutsAgain_finish {s : Scan} (h : s.Fresh) : CutsAgain s.finish := by
  refine cutsAgain_cutOff h.frames ⟨s.done.reverse, .statement s.segment.reverse false, ?_, ?_,
    cutsLast_statement h.segment, rfl⟩
  · rw [body, List.reverse_cons]
  · intro p hp
    exact h.done p (List.mem_reverse.mp hp)

theorem mem_cutOff_of_mem_outermost {frames : List Frame} {done inner : List Piece} {p : Piece}
    (h : p ∈ outermost frames done) (within : ∀ q ∈ done, q ∈ inner) :
    p ∈ cutOff frames inner := by
  induction frames generalizing done inner with
  | nil => exact within p h
  | cons f outer ih =>
    have outside : p ∈ outermost outer f.before := h
    refine ih outside fun q hq => ?_
    exact List.mem_append_left _ (List.mem_reverse.mpr hq)

end Scan

/-- Where no closing brace closes nothing, the pieces of a text are cut again from their
own texts. -/
theorem cutsAgain_pieces {text : List Char} (h : ClosesWithin (pieces text)) :
    CutsAgain (pieces text) := by
  have unstrayed : (Scan.run {} text).Unstrayed := by
    intro p hp
    refine h p (Scan.mem_cutOff_of_mem_outermost hp fun q hq => ?_)
    simp [Scan.body, hq]
  exact (Scan.fresh_start.run unstrayed).cutsAgain_finish

end AuthoredStyle.Sheet
