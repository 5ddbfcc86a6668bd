import AuthoredStyle.Proofs.Sheet.CutOut

/-!
# Sheets one behind the other

Where a sheet ends outside comments and between two pieces, nothing that follows it is
read with it: a scan goes on as it would from the start of the second sheet, above pieces
that it never touches again. Blanks that end the first sheet lead the first piece of the
second and are trimmed off it. The second sheet may be any text.
-/

namespace AuthoredStyle.Sheet

open Text (Blank)

/-! ## Comments -/

/-- The text ends inside a comment. -/
def leavesComment (inside : Bool) : List Char → Bool
  | [] => inside
  | [_] => inside
  | c :: d :: s =>
    if inside then
      if c = '*' ∧ d = '/' then leavesComment false s else leavesComment true (d :: s)
    else
      if c = '/' ∧ d = '*' then leavesComment true s else leavesComment false (d :: s)

/-- No comment opens at the border of two texts. -/
def Apart (a b : List Char) : Prop := a.getLast? ≠ some '/' ∨ b.head? ≠ some '*'

theorem Apart.of_cons {c : Char} {a b : List Char} (h : Apart (c :: a) b) : Apart a b := by
  rcases h with last | first
  · refine .inl fun same => last ?_
    cases a with
    | nil => cases same
    | cons d a => rw [List.getLast?_cons_cons, same]
  · exact .inr first

theorem uncomment_append {inside : Bool} {a b : List Char}
    (ends : leavesComment inside a = false) (apart : Apart a b) :
    uncomment inside (a ++ b) = uncomment inside a ++ uncomment false b := by
  fun_induction uncomment inside a with
  | case1 inside =>
    rw [leavesComment] at ends
    rw [ends]
    rfl
  | case2 c => cases ends
  | case3 inside c outside =>
    have here : inside = false := by simpa using outside
    subst here
    cases b with
    | nil => rfl
    | cons d b =>
      have opens : ¬ (c = '/' ∧ d = '*') := by
        rintro ⟨rfl, rfl⟩
        rcases apart with last | first
        · exact last rfl
        · exact first rfl
      simp [uncomment, opens]
  | case4 c d s closes ih =>
    rw [leavesComment, if_pos rfl, if_pos closes] at ends
    rw [List.cons_append, List.cons_append, uncomment, if_pos rfl, if_pos closes,
      ih ends apart.of_cons.of_cons]
  | case5 c d s stays ih =>
    rw [leavesComment, if_pos rfl, if_neg stays] at ends
    rw [List.cons_append, List.cons_append, uncomment, if_pos rfl, if_neg stays,
      ← List.cons_append, ih ends apart.of_cons]
  | case6 inside c d s outside opens ih =>
    rw [leavesComment, if_neg outside, if_pos opens] at ends
    rw [List.cons_append, List.cons_append, uncomment, if_neg outside, if_pos opens,
      ih ends apart.of_cons.of_cons]
  | case7 inside c d s outside stays ih =>
    rw [leavesComment, if_neg outside, if_neg stays] at ends
    rw [List.cons_append, List.cons_append, uncomment, if_neg outside, if_neg stays,
      ← List.cons_append, ih ends apart.of_cons, List.cons_append]

/-! ## A scan behind other pieces -/

/-- The piece with more text in front of its own. -/
def Piece.led (w : List Char) : Piece → Piece
  | .statement text ended => .statement (w ++ text) ended
  | .block lead body => .block (w ++ lead) body
  | .stray text => .stray (w ++ text)
  | .unclosed lead body => .unclosed (w ++ lead) body

def ledFirst (w : List Char) : List Piece → List Piece
  | [] => []
  | p :: ps => p.led w :: ps

section Behind

variable (front : List Piece) (w : List Char)

/-- Outermost pieces, latest first, with others in front and text before their first. -/
def behindPieces (done : List Piece) : List Piece := (front ++ ledFirst w done.reverse).reverse

/-- The text behind outermost pieces: the additional text leads it as long as there are none. -/
def behindText (done : List Piece) (text : List Char) : List Char :=
  if done.isEmpty then w ++ text else text

/-- The two scans differ by pieces and text in front of all that the first has read. -/
inductive Behind : Scan → Scan → Prop where
  | outside {done segment parens reading} :
      Behind ⟨[], done, segment, parens, reading⟩
        ⟨[], behindPieces front w done, (behindText w done segment.reverse).reverse, parens, reading⟩
  | inside {inner before lead done segment parens reading} :
      Behind ⟨inner ++ [⟨before, lead⟩], done, segment, parens, reading⟩
        ⟨inner ++ [⟨behindPieces front w before, behindText w before lead⟩], done, segment, parens,
          reading⟩

variable {front w}

/-- A piece is put on with its text, whatever it is. -/
theorem behindPieces_cons (piece : List Char → Piece)
    (leads : ∀ text, (piece text).led w = piece (w ++ text)) (text : List Char)
    (done : List Piece) :
    behindPieces front w (piece text :: done) =
      piece (behindText w done text) :: behindPieces front w done := by
  by_cases first : done = []
  · subst first
    simp [behindPieces, behindText, ledFirst, leads]
  · obtain ⟨p, ps, same⟩ := List.exists_cons_of_ne_nil (List.reverse_ne_nil_iff.mpr first)
    simp [behindPieces, behindText, ledFirst, same, first]

theorem Behind.keep {s t : Scan} (h : Behind front w s t) (c : Char) (parens : Nat)
    (reading : Reading) :
    Behind front w { s.keep c with parens := parens, reading := reading }
      { t.keep c with parens := parens, reading := reading } := by
  cases h with
  | @outside done segment =>
    have longer : c :: (behindText w done segment.reverse).reverse =
        (behindText w done (c :: segment).reverse).reverse := by
      unfold behindText
      split <;> simp
    simp only [Scan.keep, longer]
    exact .outside
  | inside => exact .inside

theorem Behind.endStatement {s t : Scan} (h : Behind front w s t) :
    Behind front w s.endStatement t.endStatement := by
  cases h with
  | @outside done segment =>
    have ended : behindPieces front w (.statement segment.reverse true :: done) = _ :=
      behindPieces_cons (.statement · true) (fun _ => rfl) segment.reverse done
    simp only [Scan.endStatement, List.reverse_reverse, ← ended]
    exact .outside
  | inside => exact .inside

theorem Behind.openBlock {s t : Scan} (h : Behind front w s t) :
    Behind front w s.openBlock t.openBlock := by
  cases h with
  | @outside done segment =>
    simp only [Scan.openBlock, List.reverse_reverse]
    exact @Behind.inside front w [] done segment.reverse [] [] 0 _
  | @inside inner before lead done segment =>
    simp only [Scan.openBlock, ← List.cons_append]
    exact .inside

theorem Behind.closeBlock {s t : Scan} (h : Behind front w s t) :
    Behind front w s.closeBlock t.closeBlock := by
  cases h with
  | @outside done segment =>
    have strays : behindPieces front w (.stray segment.reverse :: done) = _ :=
      behindPieces_cons .stray (fun _ => rfl) segment.reverse done
    simp only [Scan.closeBlock, List.reverse_reverse, ← strays]
    exact .outside
  | @inside inner before lead done segment =>
    cases inner with
    | nil =>
      let body := (Piece.statement segment.reverse false :: done).reverse
      have closed : behindPieces front w (.block lead body :: before) = _ :=
        behindPieces_cons (.block · body) (fun _ => rfl) lead before
      simp only [Scan.closeBlock, List.nil_append, Scan.body]
      exact closed ▸ .outside
    | cons f inner => exact .inside

/-- A step looks at nothing that the scans differ by. -/
theorem Behind.step {s t : Scan} (h : Behind front w s t) (c : Char) :
    Behind front w (s.step c) (t.step c) := by
  have alike : t.parens = s.parens ∧ t.reading = s.reading := by
    cases h <;> exact ⟨rfl, rfl⟩
  obtain ⟨parens, reading⟩ := alike
  rcases s.step_cases c with
    ⟨_, _, keeps⟩ | ⟨rfl, idle, ends⟩ | ⟨rfl, bare, opens⟩ | ⟨rfl, bare, closes⟩
  · rw [keeps s rfl rfl, keeps t parens reading]
    exact h.keep ..
  · rw [ends, Scan.step_semicolon ⟨parens.trans idle.1, reading.trans idle.2⟩]
    exact h.endStatement
  · rw [opens, Scan.step_opening (reading.trans bare)]
    exact h.openBlock
  · rw [closes, Scan.step_closing (reading.trans bare)]
    exact h.closeBlock

theorem Behind.run {s t : Scan} (h : Behind front w s t) (text : List Char) :
    Behind front w (s.run text) (t.run text) := by
  induction text generalizing s t with
  | nil => exact h
  | cons c text ih => exact ih (h.step c)

theorem cutOff_snoc (frames : List Frame) (f : Frame) (inner : List Piece) :
    Scan.cutOff (frames ++ [f]) inner =
      f.before.reverse ++ [.unclosed f.lead (Scan.cutOff frames inner)] := by
  induction frames generalizing inner with
  | nil => rfl
  | cons g frames ih => exact ih _

theorem Behind.finish {s t : Scan} (h : Behind front w s t) :
    t.finish = front ++ ledFirst w s.finish := by
  cases h with
  | @outside done segment =>
    have last : behindPieces front w (.statement segment.reverse false :: done) = _ :=
      behindPieces_cons (.statement · false) (fun _ => rfl) segment.reverse done
    simp only [Scan.finish, Scan.cutOff, Scan.body, List.reverse_reverse, ← last]
    simp [behindPieces]
  | @inside inner before lead done segment =>
    let inside := Scan.cutOff inner (Piece.statement segment.reverse false :: done).reverse
    have last : behindPieces front w (.unclosed lead inside :: before) = _ :=
      behindPieces_cons (.unclosed · inside) (fun _ => rfl) lead before
    have whole : (behindPieces front w (.unclosed lead inside :: before)).reverse =
        front ++ ledFirst w (before.reverse ++ [.unclosed lead inside]) := by
      simp [behindPieces]
    rw [last, List.reverse_cons] at whole
    simpa only [Scan.finish, Scan.body, cutOff_snoc] using whole

/-- Behind pieces that are cut alone and text that is passed over, a text is cut as it
is by itself. -/
theorem pieces_behind (alone : ∀ p ∈ front, CutsAlone p) (passes : PassesOver w) (b : List Char) :
    pieces (sources front ++ w ++ b) = front ++ ledFirst w (pieces b) := by
  have before : Scan.run {} (sources front ++ w) =
      { done := behindPieces front w [], segment := (behindText w [] []).reverse } := by
    have cut := Scan.run_sources alone (s := {}) ⟨⟨rfl, rfl⟩, rfl⟩
    rw [Scan.run_append, cut, passes.run ⟨rfl, rfl⟩]
    simp [behindPieces, behindText, ledFirst]
  have start : Behind front w {} (Scan.run {} (sources front ++ w)) := by
    rw [before]
    exact .outside
  rw [pieces, Scan.run_append]
  exact (start.run b).finish

end Behind

/-! ## Rules behind other rules -/

/-- A rule list fills the other three buckets. -/
theorem media_listedRules (file : String) (ps : List Piece) : (listedRules file ps).media = [] := by
  have spreads : Spreads file (·.media = []) := by
    refine ⟨rfl, fun a b none none' => ?_, fun selector said _ => ?_⟩
    · rw [RuleSet.media_append, none, none', List.append_nil]
    · rcases ruleOf_cases selector (declarations said) file with
        none | ⟨-, ⟨element, box⟩ | hover | plain⟩
      · rw [none]
        rfl
      · rw [box]
      · rw [hover]
      · rw [plain]
  exact spreads.listedRules ps

section Led

variable {w : List Char} (blank : Blank w)
include blank

theorem isCutOut_led (p : Piece) : (p.led w).isCutOut = p.isCutOut := by
  cases p with
  | block lead body => simp [Piece.led, Piece.isCutOut, Text.trim_blank_append lead blank]
  | statement | stray | unclosed => rfl

theorem mediaRules_led (p : Piece) : (p.led w).mediaRules = p.mediaRules := by
  cases p with
  | block lead body => simp [Piece.led, Piece.mediaRules, Text.trim_blank_append lead blank]
  | statement | stray | unclosed => rfl

theorem listedRules_led (file : String) (p : Piece) :
    (p.led w).listedRules file = p.listedRules file := by
  cases p with
  | block lead body =>
    simp [Piece.led, Piece.listedRules, Piece.styleRules, Text.trim_blank_append lead blank]
  | statement | stray | unclosed => rfl

omit blank in
theorem source_led (p : Piece) : (p.led w).source = w ++ p.source := by
  cases p with
  | statement text ended => cases ended <;> simp [Piece.led, Piece.source]
  | block | stray | unclosed => simp [Piece.led, Piece.source]

theorem mediaRules_ledFirst (ps : List Piece) :
    (ledFirst w ps).flatMap Piece.mediaRules = ps.flatMap Piece.mediaRules := by
  cases ps with
  | nil => rfl
  | cons p ps => rw [ledFirst, List.flatMap_cons, List.flatMap_cons, mediaRules_led blank]

theorem listedRules_ledFirst (file : String) (ps : List Piece) :
    listedRules file (ledFirst w ps) = listedRules file ps := by
  cases ps with
  | nil => rfl
  | cons p ps => rw [ledFirst, listedRules, listedRules, listedRules_led blank]

/-- Blanks that lead a piece are cut out with it or stay in front of the rest. -/
theorem exists_sources_ledFirst (ps : List Piece) :
    ∃ w', Blank w' ∧ sources ((ledFirst w ps).filter (!·.isCutOut)) =
      w' ++ sources (ps.filter (!·.isCutOut)) := by
  cases ps with
  | nil => exact ⟨[], Text.blank_nil, rfl⟩
  | cons p ps =>
    by_cases out : p.isCutOut = true
    · exact ⟨[], Text.blank_nil, by simp [ledFirst, isCutOut_led blank, out]⟩
    · exact ⟨w, blank, by simp [ledFirst, isCutOut_led blank, out, sources, source_led]⟩

end Led

/-- What a text without comments reads as. -/
def readPlain (text : List Char) (file : String) : RuleSet :=
  { media := (pieces text).flatMap Piece.mediaRules } ++
    listedRules file (pieces (withoutCutOuts text))

/-- Rules for breakpoints may be put in front of rules that are for none. -/
theorem append_media_comm {r : RuleSet} (none : r.media = []) (media : List MediaRule) :
    r ++ { media := media } = { media := media } ++ r := by
  change RuleSet.mk (r.plain ++ []) (r.pseudo ++ []) (r.media ++ media) (r.hover ++ []) =
    RuleSet.mk ([] ++ r.plain) ([] ++ r.pseudo) (media ++ r.media) ([] ++ r.hover)
  simp [none]

theorem readPlain_behind {ps : List Piece} (alone : ∀ p ∈ ps, CutsAlone p) {w : List Char}
    (blank : Blank w) (b : List Char) (file : String) :
    readPlain (sources ps ++ w ++ b) file =
      { media := ps.flatMap Piece.mediaRules } ++ listedRules file ps ++ readPlain b file := by
  have whole : pieces (sources ps ++ w ++ b) = ps ++ ledFirst w (pieces b) :=
    pieces_behind alone (passesOver_blank blank) b
  obtain ⟨w', blank', moved⟩ := exists_sources_ledFirst blank (pieces b)
  let left := ps.filter (!·.isCutOut)
  have rest : withoutCutOuts (sources ps ++ w ++ b) = sources left ++ w' ++ withoutCutOuts b := by
    rw [withoutCutOuts, whole, List.filter_append, sources_append, moved, List.append_assoc]
    rfl
  have stays : ∀ p ∈ left, CutsAlone p := fun p hp => alone p (List.mem_filter.mp hp).1
  have again : pieces (withoutCutOuts (sources ps ++ w ++ b)) =
      left ++ ledFirst w' (pieces (withoutCutOuts b)) := by
    rw [rest, pieces_behind stays (passesOver_blank blank')]
  have listed : listedRules file (pieces (withoutCutOuts (sources ps ++ w ++ b))) =
      listedRules file ps ++ listedRules file (pieces (withoutCutOuts b)) := by
    rw [again, listedRules_append, listedRules_filter_isCutOut, listedRules_ledFirst blank']
  have media : (pieces (sources ps ++ w ++ b)).flatMap Piece.mediaRules =
      ps.flatMap Piece.mediaRules ++ (pieces b).flatMap Piece.mediaRules := by
    rw [whole, List.flatMap_append, mediaRules_ledFirst blank]
  let mediaOf (qs : List Piece) : RuleSet := { media := qs.flatMap Piece.mediaRules }
  have aside : listedRules file ps ++ mediaOf (pieces b) = mediaOf (pieces b) ++ listedRules file ps :=
    append_media_comm (media_listedRules file ps) _
  calc readPlain (sources ps ++ w ++ b) file
      = mediaOf ps ++ mediaOf (pieces b) ++
          (listedRules file ps ++ listedRules file (pieces (withoutCutOuts b))) := by
        rw [readPlain, listed, media]
        rfl
    _ = mediaOf ps ++ (listedRules file ps ++ mediaOf (pieces b)) ++
          listedRules file (pieces (withoutCutOuts b)) := by
        rw [aside]
        simp only [RuleSet.append_assoc]
    _ = mediaOf ps ++ listedRules file ps ++ readPlain b file := by
        simp only [RuleSet.append_assoc]
        rfl

/-! ## Closed sheets -/

/-- A statement with its semicolon or a closed block. -/
def Piece.isFinished : Piece → Bool
  | .statement _ ended => ended
  | .block .. => true
  | .stray .. | .unclosed .. => false

/-- The pieces of a text that ends behind a finished piece, blanks aside. -/
def endsFinished : List Piece → Bool
  | [] => false
  | [.statement text false] => text.all Text.isBlank
  | p :: ps => p.isFinished && endsFinished ps

theorem exists_of_endsFinished {ps : List Piece} (h : endsFinished ps = true) :
    ∃ front w, ps = front ++ [.statement w false] ∧ (∀ p ∈ front, p.isFinished = true) ∧ Blank w := by
  fun_induction endsFinished ps with
  | case1 => cases h
  | case2 text =>
    refine ⟨[], text, rfl, fun p hp => absurd hp List.not_mem_nil, ?_⟩
    simpa [Blank] using h
  | case3 p ps other ih =>
    obtain ⟨first, later⟩ := Bool.and_eq_true_iff.mp h
    obtain ⟨front, w, rfl, finished, blank⟩ := ih later
    refine ⟨p :: front, w, rfl, fun q hq => ?_, blank⟩
    rcases List.mem_cons.mp hq with rfl | hq
    · exact first
    · exact finished q hq

/-- All comments and quotes are ended and all braces have their partners, and nothing
but blanks stands behind the last statement or block. -/
structure WellClosed (text : List Char) : Prop where
  comments : leavesComment false text = false
  pieces : endsFinished (pieces (dropComments text)) = true

theorem WellClosed.exists_sources {text : List Char} (h : WellClosed text) :
    ∃ ps w, dropComments text = sources ps ++ w ∧ (∀ p ∈ ps, CutsAlone p) ∧ Blank w := by
  obtain ⟨ps, w, cut, finished, blank⟩ := exists_of_endsFinished h.pieces
  have within : ClosesWithin (Sheet.pieces (dropComments text)) := by
    intro p hp
    rw [cut] at hp
    rcases List.mem_append.mp hp with hp | hp
    · have done := finished p hp
      cases p with
      | stray => cases done
      | statement | block | unclosed => rfl
    · rw [List.mem_singleton.mp hp]
      rfl
  obtain ⟨front, last, split, alone, -⟩ := cutsAgain_pieces within
  obtain ⟨same, -⟩ := List.append_inj' (cut.symm.trans split) rfl
  refine ⟨ps, w, ?_, same ▸ alone, blank⟩
  have whole := sources_pieces (dropComments text)
  rw [cut, sources_append] at whole
  simpa [sources, Piece.source] using whole.symm

/-- Behind a closed sheet any text reads as it does by itself, and it takes nothing from
the closed sheet. -/
theorem read_append (a b file : String) (closed : WellClosed a.toList)
    (apart : Apart a.toList b.toList) : read (a ++ b) file = read a file ++ read b file := by
  obtain ⟨ps, w, ends, alone, blank⟩ := closed.exists_sources
  have comments : dropComments (a ++ b).toList =
      dropComments a.toList ++ dropComments b.toList := by
    rw [String.toList_append]
    exact uncomment_append closed.comments apart
  have first := readPlain_behind alone blank [] file
  have both := readPlain_behind alone blank (dropComments b.toList) file
  have nothing : readPlain [] file = ∅ := rfl
  rw [List.append_nil, nothing, RuleSet.append_empty, ← ends] at first
  rw [← ends, ← comments, ← first] at both
  exact both

/-- A stray brace, a rule and a block that is cut off follow a sheet that ends in a comment. -/
theorem read_append_of_broken_sheet :
    let a := "@media print\x7b.a\x7btop:0\x7d\x7d.a\x7btop:0\x7d /*\x7b*/"
    let b := "\x7d.b\x7btop:0\x7d.c\x7btop:0"
    WellClosed a.toList ∧ Apart a.toList b.toList ∧ read (a ++ b) "" = read a "" ++ read b "" ∧
      (read (a ++ b) "").plain.map (·.selector) = [".a", ".b"] := by
  intro a b
  have closed : WellClosed a.toList := ⟨by decide +kernel, by decide +kernel⟩
  have apart : Apart a.toList b.toList := .inr (by decide +kernel)
  exact ⟨closed, apart, read_append a b "" closed apart, by decide +kernel⟩

end AuthoredStyle.Sheet
