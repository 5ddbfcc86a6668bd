import AuthoredStyle.Proofs.Sheet.Offsets

/-!
# The items that the offsets cut out

The loop over the bytes and the scan that makes pieces go through a text side by side. Outside
all blocks they meet behind each character; a block, which the scan reads character by
character, is one round of the loop. So no cut fails, whatever the text, and the items are
the statements and blocks among the pieces, each where its piece stands.
-/

namespace AuthoredStyle.Sheet

open Text

/-! ## The items of the pieces -/

/-- What is found of a piece that begins at `start`. -/
def Piece.item? (start : Nat) : Piece → Option PlacedItem
  | .statement text _ => statementItem? text start
  | .block lead body =>
    some (.block (trim lead) (sources body) start (start + size (Piece.block lead body).source))
  | .stray _ | .unclosed .. => none

def itemsAt (start : Nat) : List Piece → List PlacedItem
  | [] => []
  | p :: ps => (p.item? start).toList ++ itemsAt (start + size p.source) ps

theorem Scan.segment_step {s : Scan} {c : Char}
    (h : s.reading = .bare → ¬ (c = ';' ∧ s.parens = 0) ∧ c ≠ '{' ∧ c ≠ '}') :
    (s.step c).segment = c :: s.segment := by
  rcases s.step_cases c with
    ⟨parens, reading, keeps⟩ | ⟨ending, idle, -⟩ | ⟨opening, bare, -⟩ | ⟨closing, bare, -⟩
  · rw [keeps s rfl rfl]
    rfl
  · exact absurd ⟨ending, idle.1⟩ (h idle.2).1
  · exact absurd opening (h bare).2.1
  · exact absurd closing (h bare).2.2

theorem Scan.step_inside {s : Scan} (inside : s.reading ≠ .bare) (c : Char) :
    s.step c = { s.keep c with parens := s.parens, reading := s.reading.next c } := by
  rw [← s.reading_step c]
  cases now : s.reading with
  | bare => exact absurd now inside
  | escaped mark =>
    rw [Scan.step_escaped c now]
    rfl
  | quoted mark =>
    rw [Scan.step_quoted c now]
    by_cases slash : c = '\\'
    · simp only [if_pos slash]
      rfl
    · by_cases ends : c = mark
      · simp only [if_neg slash, if_pos ends]
        rfl
      · simp only [if_neg slash, if_neg ends]
        rfl

/-- Outside all blocks the items still to be found in `b` are those of the pieces that the scan
makes of it. The segment starts behind `a`. -/
def ItemsFollow (text a : List Char) (s : Scan) (b : List Char) : Prop :=
  ∃ ps, (s.run b).finish = s.done.reverse ++ ps ∧
    scanFrom text (size a) s.parens
      (resume (bytes text) s.reading (size (a ++ s.segment.reverse))) = .ok (itemsAt (size a) ps)

section Follow

variable {text a b : List Char} {c : Char} {s : Scan}

/-- The character is kept, and the loop moves behind it. -/
theorem ItemsFollow.of_keep (parens : Nat) (reading : Reading)
    (h : ItemsFollow text a (s.step c) b)
    (kept : s.step c = { s.keep c with parens := parens, reading := reading })
    (round : scanFrom text (size a) s.parens
        (resume (bytes text) s.reading (size (a ++ s.segment.reverse))) =
      scanFrom text (size a) parens
        (resume (bytes text) reading (size (a ++ s.segment.reverse ++ [c])))) :
    ItemsFollow text a s (c :: b) := by
  obtain ⟨ps, pieces, items⟩ := h
  rw [kept] at pieces items
  refine ⟨ps, ?_, ?_⟩
  · rw [Scan.run_cons, kept, pieces]
    rfl
  · rw [round]
    simpa [Scan.keep] using items

/-- The scan has made a piece, and the loop starts a segment behind it. -/
theorem ItemsFollow.of_piece (front : List Char) {p : Piece} {parens : Nat}
    (h : ItemsFollow text (a ++ p.source) (s.run front) b) (bare : s.reading = .bare)
    (cut : s.run front = { s with done := p :: s.done, segment := [], parens := parens })
    (round : ∀ later,
      scanFrom text (size (a ++ p.source)) parens (size (a ++ p.source)) = .ok later →
        scanFrom text (size a) s.parens (size (a ++ s.segment.reverse)) =
          .ok ((p.item? (size a)).toList ++ later)) :
    ItemsFollow text a s (front ++ b) := by
  obtain ⟨ps, pieces, items⟩ := h
  rw [cut] at pieces items
  rw [List.reverse_nil, List.append_nil, bare] at items
  refine ⟨p :: ps, ?_, ?_⟩
  · rw [Scan.run_append, cut, pieces]
    simp
  · rw [bare, itemsAt, ← size_append]
    exact round _ items

theorem itemsFollow_nil (a : List Char) (outside : s.frames = []) :
    ItemsFollow (a ++ s.segment.reverse) a s [] := by
  have cut := slice_append a s.segment.reverse []
  rw [← size_append, List.append_nil] at cut
  refine ⟨[.statement s.segment.reverse false], ?_, ?_⟩
  · rw [Scan.run, List.foldl_nil, Scan.finish, outside]
    exact List.reverse_cons
  · rw [resume_end, scanFrom_end _ rfl, cut, itemsAt, itemsAt, List.append_nil]
    rfl

theorem ItemsFollow.inside
    (h : ItemsFollow (a ++ s.segment.reverse ++ c :: b) a (s.step c) b)
    (marked : s.reading.Marked) (inside : s.reading ≠ .bare) :
    ItemsFollow (a ++ s.segment.reverse ++ c :: b) a s (c :: b) := by
  refine h.of_keep _ _ (s.step_inside inside c) ?_
  rw [resume_next marked inside]

/-- Outside quotes, where the character is kept. -/
theorem ItemsFollow.bare
    (h : ItemsFollow (a ++ s.segment.reverse ++ c :: b) a (s.step c) b) (bare : s.reading = .bare)
    (noSemicolon : ¬ (c = ';' ∧ s.parens = 0)) (noOpening : c ≠ '{') (noClosing : c ≠ '}') :
    ItemsFollow (a ++ s.segment.reverse ++ c :: b) a s (c :: b) := by
  have step := Scan.step_bare c bare
  by_cases quote : c = '"' ∨ c = '\''
  · obtain ⟨ascii, quotes⟩ := isQuote_code quote
    rw [if_pos quote] at step
    refine h.of_keep s.parens (.quoted c) step ?_
    rw [bare, resume, size_snoc_ascii _ ascii, scanFrom_at _ (getElem_bytes_ascii _ ascii b), if_pos quotes]
    rfl
  rw [if_neg quote] at step
  by_cases opens : c = '('
  · subst opens
    rw [if_pos rfl] at step
    refine h.of_keep (s.parens + 1) s.reading step ?_
    rw [bare, resume, size_snoc_ascii _ (by decide), scanFrom_at _ (getElem_bytes_ascii _ (by decide) b),
      if_neg (by decide), if_pos rfl]
    rfl
  rw [if_neg opens] at step
  by_cases closes : c = ')'
  · subst closes
    rw [if_pos rfl] at step
    refine h.of_keep (s.parens - 1) s.reading step ?_
    rw [bare, resume, size_snoc_ascii _ (by decide), scanFrom_at _ (getElem_bytes_ascii _ (by decide) b),
      if_neg (by decide), if_neg (by decide), if_pos rfl]
    rfl
  rw [if_neg closes, if_neg noSemicolon, if_neg noOpening, if_neg noClosing] at step
  refine h.of_keep s.parens s.reading step ?_
  have across := eq_across (f := scanFrom (a ++ s.segment.reverse ++ c :: b) (size a) s.parens)
    (a ++ s.segment.reverse) c b (Nat.zero_le _) fun j x hx here => by
      have other {d : Char} (ascii : IsAscii d) (noChar : c ≠ d) : x ≠ code d :=
        ne_code_of_mem ascii noChar hx
      have noCut : ¬ (x = code ';' ∧ s.parens = 0) := by
        rintro ⟨rfl, none⟩
        exact noSemicolon ⟨eq_of_code_mem (by decide) hx, none⟩
      rw [scanFrom_at _ here, if_neg (not_isQuote quote hx), if_neg (other (by decide) opens),
        if_neg (other (by decide) closes), if_neg noCut, if_neg (other (by decide) noOpening),
        if_neg (other (by decide) noClosing)]
  have size : size (a ++ s.segment.reverse ++ [c]) =
      size (a ++ s.segment.reverse) + c.utf8Size := by
    simp [Nat.add_assoc]
  rw [bare, size]
  exact across

theorem ItemsFollow.semicolon
    (h : ItemsFollow (a ++ s.segment.reverse ++ ';' :: b)
      (a ++ (Piece.statement s.segment.reverse true).source) (s.step ';') b) (idle : s.Idle) :
    ItemsFollow (a ++ s.segment.reverse ++ ';' :: b) a s (';' :: b) := by
  have cut : s.run [';'] =
      { s with
        done := .statement s.segment.reverse true :: s.done, segment := [], parens := 0 } := by
    rw [← idle.1]
    exact Scan.step_semicolon idle
  refine ItemsFollow.of_piece [';'] h idle.2 cut fun later rest => ?_
  have segment := slice_append a s.segment.reverse (';' :: b)
  have behind : size (a ++ s.segment.reverse) + 1 =
      size (a ++ (Piece.statement s.segment.reverse true).source) := by
    rw [← size_snoc_ascii _ (show IsAscii ';' by decide), List.append_assoc]
    rfl
  rw [← size_append] at segment
  rw [idle.1, scanFrom_at _ (getElem_bytes_ascii _ (by decide) b), if_neg (by decide),
    if_neg (by decide), if_neg (by decide), if_pos ⟨rfl, rfl⟩, segment, bind_ok,
    behind, rest, bind_ok]
  rfl

theorem ItemsFollow.stray
    (h : ItemsFollow (a ++ s.segment.reverse ++ '}' :: b)
      (a ++ (Piece.stray s.segment.reverse).source) (s.step '}') b)
    (outside : s.frames = []) (bare : s.reading = .bare) :
    ItemsFollow (a ++ s.segment.reverse ++ '}' :: b) a s ('}' :: b) := by
  have cut : s.run ['}'] =
      { s with done := .stray s.segment.reverse :: s.done, segment := [], parens := s.parens } := by
    refine (Scan.step_closing bare).trans ?_
    rw [Scan.closeBlock, outside]
  refine ItemsFollow.of_piece ['}'] h bare cut fun later rest => ?_
  have behind : size (a ++ s.segment.reverse) + 1 =
      size (a ++ (Piece.stray s.segment.reverse).source) := by
    rw [← size_snoc_ascii _ (show IsAscii '}' by decide), List.append_assoc]
    rfl
  have noSemicolon : ¬ (code '}' = code ';' ∧ s.parens = 0) := fun h => absurd h.1 (by decide)
  rw [scanFrom_at _ (getElem_bytes_ascii _ (by decide) b), if_neg (by decide),
    if_neg (by decide), if_neg (by decide), if_neg noSemicolon, if_neg (by decide), if_pos rfl,
    behind]
  exact rest

/-- From an opening brace the loop goes on with what the brace count says. -/
theorem scanFrom_opening (front : List Char) (start parens : Nat) (b : List Char) :
    scanFrom (front ++ '{' :: b) start parens (size front) = (do
      match ← matchingBrace (bytes (front ++ ['{'] ++ b)) 1 (size (front ++ ['{'])) with
      | none => return []
      | some close =>
        let lead ← slice (front ++ '{' :: b) start (size front)
        let body ← slice (front ++ '{' :: b) (size (front ++ ['{'])) close
        let later ← scanFrom (front ++ '{' :: b) (close + 1) 0 (close + 1)
        return .block (trim lead) body start (close + 1) :: later) := by
  have here := getElem_bytes_ascii front (c := '{') (by decide) b
  have noSemicolon : ¬ (code '{' = code ';' ∧ parens = 0) := fun h => absurd h.1 (by decide)
  have behind : size front + 1 = size (front ++ ['{']) :=
    (size_snoc_ascii front (by decide)).symm
  rw [scanFrom_at _ here, if_neg (by decide), if_neg (by decide), if_neg (by decide),
    if_neg noSemicolon, if_pos rfl, matchingBrace_opening here, behind, List.append_assoc]
  rfl

theorem ItemsFollow.block {m rest : List Char} (enclosed : Enclosed m)
    (h : ItemsFollow (a ++ s.segment.reverse ++ '{' :: (m ++ '}' :: rest))
      (a ++ (Piece.block s.segment.reverse (pieces m)).source) (s.run ('{' :: (m ++ ['}']))) rest)
    (bare : s.reading = .bare)
    (found : matchingBrace (bytes (a ++ s.segment.reverse ++ ['{'] ++ (m ++ '}' :: rest))) 1
        (size (a ++ s.segment.reverse ++ ['{'])) =
      .ok (some (size (a ++ s.segment.reverse ++ ['{'] ++ m)))) :
    ItemsFollow (a ++ s.segment.reverse ++ '{' :: (m ++ '}' :: rest)) a s
      ('{' :: (m ++ '}' :: rest)) := by
  have parts : '{' :: (m ++ '}' :: rest) = '{' :: (m ++ ['}']) ++ rest := by simp
  have follow := ItemsFollow.of_piece ('{' :: (m ++ ['}'])) h bare (Scan.run_block bare enclosed)
  rw [← parts] at follow
  refine follow fun later rest' => ?_
  have lead := slice_append a s.segment.reverse ('{' :: (m ++ '}' :: rest))
  have body := slice_append (a ++ s.segment.reverse ++ ['{']) m ('}' :: rest)
  have whole : a ++ s.segment.reverse ++ ['{'] ++ m ++ '}' :: rest =
      a ++ s.segment.reverse ++ '{' :: (m ++ '}' :: rest) := by simp
  have behind : size (a ++ s.segment.reverse ++ ['{'] ++ m) + 1 =
      size (a ++ (Piece.block s.segment.reverse (pieces m)).source) := by
    rw [← size_snoc_ascii _ (show IsAscii '}' by decide)]
    simp [Piece.source, sources_pieces]
  rw [← size_append] at lead body
  rw [whole] at body
  rw [scanFrom_opening, found, bind_ok]
  dsimp only
  rw [lead, bind_ok, body, bind_ok, behind, rest', bind_ok, Piece.item?, sources_pieces,
    size_append]
  rfl

theorem itemsFollow_unclosed (outside : s.frames = []) (bare : s.reading = .bare)
    (unstrayed : (Scan.run {} b).Unstrayed)
    (found : matchingBrace (bytes (a ++ s.segment.reverse ++ ['{'] ++ b)) 1
      (size (a ++ s.segment.reverse ++ ['{'])) = .ok none) :
    ItemsFollow (a ++ s.segment.reverse ++ '{' :: b) a s ('{' :: b) := by
  refine ⟨[.unclosed s.segment.reverse (pieces b)], ?_, ?_⟩
  · rw [Scan.finish_unclosed bare unstrayed, outside]
    rfl
  · rw [bare, resume, scanFrom_opening, found]
    rfl

end Follow

theorem itemsFollow (b : List Char) {a : List Char} {s : Scan} (outside : s.frames = [])
    (marked : s.reading.Marked) :
    ItemsFollow (a ++ s.segment.reverse ++ b) a s b := by
  -- by length: a block is many steps of the scan and one round of the loop
  obtain ⟨n, length⟩ : ∃ n, b.length = n := ⟨_, rfl⟩
  induction n using Nat.strong_induction_on generalizing a b s with
  | _ n ih =>
  cases b with
  | nil =>
    rw [List.append_nil]
    exact itemsFollow_nil a outside
  | cons c b =>
  have onward {t : Scan} {a' rest : List Char} (outside' : t.frames = [])
      (marked' : t.reading.Marked) (shorter : rest.length ≤ b.length)
      (same : a' ++ t.segment.reverse ++ rest = a ++ s.segment.reverse ++ c :: b) :
      ItemsFollow (a ++ s.segment.reverse ++ c :: b) a' t rest := by
    rw [← same]
    refine ih rest.length ?_ rest outside' marked' rfl
    rw [← length]
    exact Nat.lt_succ_of_le shorter
  have marked' : (s.step c).reading.Marked := by
    rw [s.reading_step c]
    exact marked.next c
  by_cases bare : s.reading = .bare
  · by_cases semicolon : c = ';' ∧ s.parens = 0
    · obtain ⟨rfl, none⟩ := semicolon
      refine ItemsFollow.semicolon (onward ?_ marked' (Nat.le_refl _) ?_) ⟨none, bare⟩
      · rw [Scan.step_semicolon ⟨none, bare⟩]
        exact outside
      · rw [Scan.step_semicolon ⟨none, bare⟩]
        simp [Scan.endStatement, Piece.source]
    by_cases closing : c = '}'
    · subst closing
      have strays := Scan.step_closing bare
      rw [Scan.closeBlock, outside] at strays
      refine ItemsFollow.stray (onward ?_ marked' (Nat.le_refl _) ?_) outside bare
      · rw [strays]
      · rw [strays]
        simp [Piece.source]
    by_cases opening : c = '{'
    · subst opening
      have started : Reading.Marked .bare := by rintro mark (⟨⟨⟩⟩ | ⟨⟨⟩⟩)
      have start : Scan.Unstrayed {} := fun _ hp => absurd hp List.not_mem_nil
      rcases matchingBrace_run (t := {}) started start (a ++ s.segment.reverse ++ ['{']) b with
        ⟨m, rest, rfl, ends, none, inside, found⟩ | ⟨inside, found⟩
      · have enclosed : Enclosed m := ⟨ends, none, inside⟩
        refine ItemsFollow.block enclosed (onward ?_ ?_ ?_ ?_) bare found
        · rw [Scan.run_block bare enclosed]
          exact outside
        · rw [Scan.run_block bare enclosed]
          exact marked
        · rw [List.length_append, List.length_cons]
          omega
        · rw [Scan.run_block bare enclosed]
          simp [Piece.source, sources_pieces]
      · exact itemsFollow_unclosed outside bare inside found
    · refine ItemsFollow.bare (onward ?_ marked' (Nat.le_refl _) ?_) bare semicolon opening closing
      · rw [Scan.frames_step fun _ => ⟨opening, closing⟩, outside]
      · rw [Scan.segment_step fun _ => ⟨semicolon, opening, closing⟩]
        simp
  · refine ItemsFollow.inside (onward ?_ marked' (Nat.le_refl _) ?_) marked bare
    · rw [Scan.frames_step fun now => absurd now bare, outside]
    · rw [Scan.segment_step fun now => absurd now bare]
      simp

/-- Nothing fails, and what is found is found of the pieces. -/
theorem scanItems_eq (text : List Char) : scanItems text = .ok (itemsAt 0 (pieces text)) := by
  have started : Reading.Marked .bare := by rintro mark (⟨⟨⟩⟩ | ⟨⟨⟩⟩)
  obtain ⟨ps, all, found⟩ := itemsFollow text (a := []) (s := {}) rfl started
  rw [pieces, all]
  exact found

end AuthoredStyle.Sheet
