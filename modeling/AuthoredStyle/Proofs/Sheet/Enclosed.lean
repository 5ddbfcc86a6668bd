import AuthoredStyle.Proofs.Sheet.Rereading

/-!
# What stands between braces

A block's text is cut as it is by itself: the scan goes on above the blocks that are open
around it and does not look at them until the closing brace. Of the pieces outside all blocks
each starts and ends outside quotes, whatever the text, and each closed block holds the pieces
of an enclosed text.
-/

namespace AuthoredStyle.Sheet

namespace Scan

instance : DecidablePred Unstrayed := fun s =>
  inferInstanceAs (Decidable (ClosesWithin (outermost s.frames s.done)))

/-! ## Above open blocks -/

/-- The scan with more blocks open around it. -/
def above (outer : List Frame) (s : Scan) : Scan := { s with frames := s.frames ++ outer }

theorem cutOff_append (frames outer : List Frame) (inner : List Piece) :
    cutOff (frames ++ outer) inner = cutOff outer (cutOff frames inner) := by
  induction frames generalizing inner with
  | nil => rfl
  | cons f frames ih => exact ih _

theorem finish_above (outer : List Frame) (s : Scan) :
    (s.above outer).finish = cutOff outer s.finish :=
  cutOff_append s.frames outer s.body

theorem openBlock_eq {s : Scan} (bare : s.reading = .bare) :
    s.openBlock = above (⟨s.done, s.segment.reverse⟩ :: s.frames) {} := by
  obtain ⟨frames, done, segment, parens, reading⟩ := s
  obtain rfl : reading = .bare := bare
  rfl

/-- Only a brace that closes nothing makes a stray piece. -/
theorem Unstrayed.step {s : Scan} (h : s.Unstrayed) {c : Char}
    (within : ¬ (c = '}' ∧ s.reading = .bare ∧ s.frames = [])) : (s.step c).Unstrayed := by
  have more (frames : List Frame) {p : Piece} (noStray : p.isStray = false) {done : List Piece}
      (h : ClosesWithin (outermost frames done)) : ClosesWithin (outermost frames (p :: done)) := by
    cases frames with
    | nil => exact List.forall_mem_cons.mpr ⟨noStray, h⟩
    | cons f outer => exact h
  rcases s.step_cases c with
    ⟨parens, reading, keeps⟩ | ⟨-, -, ends⟩ | ⟨-, -, opens⟩ | ⟨brace, bare, closes⟩
  · rw [keeps s rfl rfl]
    exact h
  · rw [ends]
    exact more s.frames rfl h
  · rw [opens]
    exact h
  · obtain ⟨f, outer, framed⟩ := List.exists_cons_of_ne_nil fun none => within ⟨brace, bare, none⟩
    rw [closes, closeBlock, framed]
    rw [Unstrayed, framed] at h
    exact more outer rfl h

/-- A step looks at no block around it unless it closes the outermost. -/
theorem step_above (outer : List Frame) {s : Scan} {c : Char}
    (within : ¬ (c = '}' ∧ s.reading = .bare ∧ s.frames = [])) :
    (s.above outer).step c = (s.step c).above outer := by
  rcases s.step_cases c with
    ⟨parens, reading, keeps⟩ | ⟨rfl, idle, ends⟩ | ⟨rfl, bare, opens⟩ | ⟨rfl, bare, closes⟩
  · rw [keeps s rfl rfl, keeps (s.above outer) rfl rfl]
    rfl
  · rw [ends, step_semicolon (s := s.above outer) idle]
    rfl
  · rw [opens, step_opening (s := s.above outer) bare]
    rfl
  · obtain ⟨f, rest, framed⟩ := List.exists_cons_of_ne_nil fun none => within ⟨rfl, bare, none⟩
    have framed' : (s.above outer).frames = f :: (rest ++ outer) := by rw [above, framed]; rfl
    rw [closes, step_closing (s := s.above outer) bare, closeBlock, closeBlock, framed, framed']
    rfl

theorem closes_of_strayed {s : Scan} {c : Char} (h : (s.step c).Unstrayed) :
    ¬ (c = '}' ∧ s.reading = .bare ∧ s.frames = []) := by
  rintro ⟨rfl, bare, none⟩
  rw [step_closing bare] at h
  exact h.frames_ne_nil none

theorem run_above (outer : List Frame) {s : Scan} {text : List Char}
    (unstrayed : (s.run text).Unstrayed) :
    (s.above outer).run text = (s.run text).above outer := by
  induction text generalizing s with
  | nil => rfl
  | cons c text ih =>
    have later : ((s.step c).run text).Unstrayed := unstrayed
    rw [run_cons, step_above outer (closes_of_strayed later.of_run), ih later]
    rfl

end Scan

/-! ## Enclosed texts -/

/-- Its quotes end and its braces have their partners. -/
structure Enclosed (text : List Char) : Prop where
  bare : (Scan.run {} text).reading = .bare
  frames : (Scan.run {} text).frames = []
  unstrayed : (Scan.run {} text).Unstrayed

theorem pieces_of_frames_eq_nil {text : List Char} (frames : (Scan.run {} text).frames = []) :
    pieces text = (Scan.run {} text).body := by
  rw [pieces, Scan.finish, frames]
  rfl

/-- An enclosed text becomes one block, wherever braces count. -/
theorem Scan.run_block {s : Scan} (bare : s.reading = .bare) {body : List Char}
    (enclosed : Enclosed body) :
    s.run ('{' :: (body ++ ['}'])) =
      { s with
        done := .block s.segment.reverse (pieces body) :: s.done, segment := [], parens := 0 } := by
  have inside := Scan.run_above (⟨s.done, s.segment.reverse⟩ :: s.frames) enclosed.unstrayed
  have closes := Scan.step_closing
    (s := (Scan.run {} body).above (⟨s.done, s.segment.reverse⟩ :: s.frames)) enclosed.bare
  have last (t : Scan) : t.run ['}'] = t.step '}' := rfl
  rw [Scan.run_cons, Scan.step_opening bare, Scan.openBlock_eq bare, Scan.run_append, inside, last,
    closes, Scan.closeBlock, Scan.above, enclosed.frames, List.nil_append,
    pieces_of_frames_eq_nil enclosed.frames]
  simp only [enclosed.bare, bare]
  rfl

/-- A block that the end of the text cuts off. -/
theorem Scan.finish_unclosed {s : Scan} (bare : s.reading = .bare) {body : List Char}
    (unstrayed : (Scan.run {} body).Unstrayed) :
    (s.run ('{' :: body)).finish =
      Scan.cutOff s.frames (s.done.reverse ++ [.unclosed s.segment.reverse (pieces body)]) := by
  rw [Scan.run_cons, Scan.step_opening bare, Scan.openBlock_eq bare, Scan.run_above _ unstrayed,
    Scan.finish_above]
  rfl

/-! ## The pieces outside all blocks -/

/-- A piece that is over starts and ends outside quotes, and a block is over where its text is
enclosed. -/
inductive Whole : Piece → Prop where
  | statement {text} (ends : Reading.after .bare text = .bare) : Whole (.statement text true)
  | stray {text} (ends : Reading.after .bare text = .bare) : Whole (.stray text)
  | block {lead body} (ends : Reading.after .bare lead = .bare) (enclosed : Enclosed body) :
      Whole (.block lead (pieces body))

theorem Whole.after_source {p : Piece} (h : Whole p) : Reading.after .bare p.source = .bare := by
  cases h with
  | statement ends | stray ends =>
    simp only [Piece.source, if_true, Reading.after_append, ends]
    rfl
  | @block lead body ends enclosed =>
    have inside : Reading.after .bare body = .bare :=
      (Scan.reading_run {} body).symm.trans enclosed.bare
    have opens : Reading.after .bare ['{'] = .bare := rfl
    have parts : lead ++ '{' :: (body ++ ['}']) = lead ++ (['{'] ++ (body ++ ['}'])) := rfl
    rw [Piece.source, sources_pieces, parts, Reading.after_append, Reading.after_append,
      Reading.after_append, ends, opens, inside]
    rfl

/-- The last piece of a text. -/
inductive Last : Piece → Prop where
  | statement {text} : Last (.statement text false)
  | unclosed {lead body} (ends : Reading.after .bare lead = .bare)
      (unstrayed : (Scan.run {} body).Unstrayed) : Last (.unclosed lead (pieces body))

namespace Scan

/-- Outside all blocks, or in one whose text is cut as by itself. -/
inductive Outer (s : Scan) : Prop where
  | outside (frames : s.frames = []) (whole : ∀ p ∈ s.done, Whole p)
      (led : Reading.after .bare s.segment.reverse = s.reading)
  | inside (f : Frame) (text : List Char) (whole : ∀ p ∈ f.before, Whole p)
      (ends : Reading.after .bare f.lead = .bare) (unstrayed : (run {} text).Unstrayed)
      (here : s = (run {} text).above [f])

theorem Outer.step {s : Scan} (h : s.Outer) (c : Char) : (s.step c).Outer := by
  cases h with
  | outside frames whole led =>
    have reading := s.reading_step c
    rcases s.step_cases c with
      ⟨parens, next, keeps⟩ | ⟨rfl, idle, ends⟩ | ⟨rfl, bare, opens⟩ | ⟨rfl, bare, closes⟩
    · rw [keeps s rfl rfl] at reading ⊢
      refine .outside frames whole ?_
      simp only [keep, List.reverse_cons, Reading.after_append, led]
      exact reading.symm
    · rw [ends]
      exact .outside frames (List.forall_mem_cons.mpr ⟨.statement (led.trans idle.2), whole⟩)
        idle.2.symm
    · rw [opens]
      refine .inside ⟨s.done, s.segment.reverse⟩ [] whole (led.trans bare) ?_ ?_
      · exact fun _ hp => absurd hp List.not_mem_nil
      · rw [openBlock_eq bare, frames]
        rfl
    · rw [closes, closeBlock, frames]
      exact .outside rfl (List.forall_mem_cons.mpr ⟨.stray (led.trans bare), whole⟩) bare.symm
  | inside f text whole ends unstrayed here =>
    subst here
    by_cases leaves : c = '}' ∧ (run {} text).reading = .bare ∧ (run {} text).frames = []
    · obtain ⟨rfl, bare, frames⟩ := leaves
      have enclosed : Enclosed text := ⟨bare, frames, unstrayed⟩
      rw [step_closing (s := (run {} text).above [f]) bare, closeBlock, above, frames,
        List.nil_append]
      refine .outside rfl (List.forall_mem_cons.mpr ⟨?_, whole⟩) bare.symm
      have block := Whole.block ends enclosed
      rwa [pieces_of_frames_eq_nil frames] at block
    · have onward : (run {} text).step c = run {} (text ++ [c]) := by
        rw [run_append]
        rfl
      have later := unstrayed.step leaves
      rw [onward] at later
      exact .inside f (text ++ [c]) whole ends later (by rw [step_above _ leaves, onward])

theorem Outer.run {s : Scan} (h : s.Outer) (text : List Char) : (s.run text).Outer := by
  induction text generalizing s with
  | nil => exact h
  | cons c text ih => exact ih (h.step c)

end Scan

/-- All pieces but the last are over. -/
theorem exists_whole_last (text : List Char) :
    ∃ front last, pieces text = front ++ [last] ∧ (∀ p ∈ front, Whole p) ∧ Last last := by
  have start : Scan.Outer {} := .outside rfl (fun _ hp => absurd hp List.not_mem_nil) rfl
  cases start.run text with
  | outside frames whole led =>
    refine ⟨_, _, (pieces_of_frames_eq_nil frames).trans List.reverse_cons, fun p hp => ?_,
      .statement⟩
    exact whole p (List.mem_reverse.mp hp)
  | inside f body whole ends unstrayed here =>
    refine ⟨f.before.reverse, .unclosed f.lead (pieces body), ?_, fun p hp => ?_,
      .unclosed ends unstrayed⟩
    · rw [pieces, here, Scan.finish_above]
      rfl
    · exact whole p (List.mem_reverse.mp hp)

end AuthoredStyle.Sheet
