import AuthoredStyle.Text.Blank

/-!
# The block structure of a stylesheet

Stylesheet text is cut into statements, which end in `;`, and blocks, which are
enclosed in braces. Only braces, parentheses, quotes and semicolons are looked
at. A semicolon inside parentheses separates nothing, a brace counts at any
parenthesis depth, and nothing inside a quoted string counts; a backslash
inside quotes protects the next character.

The pieces keep every character of the text: `sources_pieces` reads the text
back from them, well formed or not. What the pieces mean is not decided here.
-/

namespace AuthoredStyle.Sheet

inductive Piece where
  /-- Text up to a semicolon, or the text that ends its block. -/
  | statement (text : List Char) (ended : Bool)
  | block (lead : List Char) (body : List Piece)
  /-- Text up to a closing brace that closes nothing. -/
  | stray (text : List Char)
  /-- A block that the end of the text cuts off. -/
  | unclosed (lead : List Char) (body : List Piece)

mutual

def Piece.source : Piece → List Char
  | .statement text ended => if ended then text ++ [';'] else text
  | .block lead body => lead ++ '{' :: (sources body ++ ['}'])
  | .stray text => text ++ ['}']
  | .unclosed lead body => lead ++ '{' :: sources body

def sources : List Piece → List Char
  | [] => []
  | p :: ps => p.source ++ sources ps

end

/-- Where the reader stands with respect to quoted strings. -/
inductive Reading where
  | bare
  | quoted (mark : Char)
  | escaped (mark : Char)
  deriving DecidableEq, Repr

/-- A block that is still open: the pieces before it, latest first, and the text
in front of its brace. -/
structure Frame where
  before : List Piece
  lead : List Char

/-- Progress through a text. `done` and `segment` hold the pieces of the
innermost open block and the text behind them, latest first. -/
structure Scan where
  frames : List Frame := []
  done : List Piece := []
  segment : List Char := []
  parens : Nat := 0
  reading : Reading := .bare

namespace Scan

def keep (s : Scan) (c : Char) : Scan := { s with segment := c :: s.segment }

def endStatement (s : Scan) : Scan :=
  { s with done := .statement s.segment.reverse true :: s.done, segment := [] }

def openBlock (s : Scan) : Scan :=
  { s with
    frames := ⟨s.done, s.segment.reverse⟩ :: s.frames, done := [], segment := [], parens := 0 }

/-- The pieces of the innermost open block so far, its last text included. -/
def body (s : Scan) : List Piece := (Piece.statement s.segment.reverse false :: s.done).reverse

def closeBlock (s : Scan) : Scan :=
  match s.frames with
  | [] => { s with done := .stray s.segment.reverse :: s.done, segment := [] }
  | f :: outer =>
    { s with
      frames := outer, done := .block f.lead s.body :: f.before, segment := [], parens := 0 }

def step (s : Scan) (c : Char) : Scan :=
  match s.reading with
  | .escaped mark => { s.keep c with reading := .quoted mark }
  | .quoted mark =>
    if c = '\\' then { s.keep c with reading := .escaped mark }
    else if c = mark then { s.keep c with reading := .bare }
    else s.keep c
  | .bare =>
    match c with
    | '"' => { s.keep c with reading := .quoted c }
    | '\'' => { s.keep c with reading := .quoted c }
    | '(' => { s.keep c with parens := s.parens + 1 }
    | ')' => { s.keep c with parens := s.parens - 1 }
    | ';' => if s.parens = 0 then s.endStatement else s.keep c
    | '{' => s.openBlock
    | '}' => s.closeBlock
    | _ => s.keep c

def run (s : Scan) (text : List Char) : Scan := text.foldl step s

/-- Blocks still open at the end, from the innermost outward. -/
def cutOff : List Frame → List Piece → List Piece
  | [], inner => inner
  | f :: outer, inner => cutOff outer (f.before.reverse ++ [.unclosed f.lead inner])

def finish (s : Scan) : List Piece := cutOff s.frames s.body

theorem run_append (s : Scan) (a b : List Char) : s.run (a ++ b) = (s.run a).run b :=
  List.foldl_append

end Scan

def pieces (text : List Char) : List Piece := (Scan.run {} text).finish

theorem sources_append (ps qs : List Piece) : sources (ps ++ qs) = sources ps ++ sources qs := by
  induction ps with
  | nil => rfl
  | cons p ps ih => simp [sources, ih]

namespace Scan

/-- The text in front of the innermost open block, its brace included. -/
def outside : List Frame → List Char
  | [] => []
  | f :: outer => outside outer ++ sources f.before.reverse ++ f.lead ++ ['{']

/-- The text read so far. -/
def source (s : Scan) : List Char :=
  outside s.frames ++ sources s.done.reverse ++ s.segment.reverse

theorem source_body (s : Scan) : sources s.body = sources s.done.reverse ++ s.segment.reverse := by
  simp [body, sources_append, sources, Piece.source]

theorem source_step (s : Scan) (c : Char) : (s.step c).source = s.source ++ [c] := by
  have kept : (s.keep c).source = s.source ++ [c] := by simp [source, keep]
  unfold step
  split
  · exact kept
  · split
    · exact kept
    · split <;> exact kept
  · split
    · exact kept
    · exact kept
    · exact kept
    · exact kept
    · split
      · simp [source, endStatement, sources_append, sources, Piece.source]
      · exact kept
    · simp [source, openBlock, outside, sources]
    · unfold closeBlock
      split
      · simp [source, sources_append, sources, Piece.source]
      · rename_i f outer open'
        simp [source, open', outside, sources_append, sources, Piece.source, source_body]
    · exact kept

theorem source_run (s : Scan) (text : List Char) : (s.run text).source = s.source ++ text := by
  induction text generalizing s with
  | nil => simp [run]
  | cons c text ih =>
    have : s.run (c :: text) = (s.step c).run text := rfl
    rw [this, ih, source_step]
    simp

theorem sources_cutOff (frames : List Frame) (inner : List Piece) :
    sources (cutOff frames inner) = outside frames ++ sources inner := by
  induction frames generalizing inner with
  | nil => rfl
  | cons f outer ih => simp [cutOff, ih, outside, sources_append, sources, Piece.source]

theorem sources_finish (s : Scan) : sources s.finish = s.source := by
  simp [finish, sources_cutOff, source_body, source]

end Scan

/-- No character of the text is lost or moved. -/
theorem sources_pieces (text : List Char) : sources (pieces text) = text := by
  rw [pieces, Scan.sources_finish, Scan.source_run]
  simp [Scan.source, Scan.outside, sources]

namespace Piece

/-- The trimmed text of a statement that says anything. -/
def statement? : Piece → Option (List Char)
  | .statement text _ =>
    let said := Text.trim text
    if said.isEmpty then none else some said
  | _ => none

/-- What a closed block stands under. -/
def prelude? : Piece → Option (List Char)
  | .block lead _ => some (Text.trim lead)
  | _ => none

end Piece

def statements (ps : List Piece) : List (List Char) := ps.filterMap Piece.statement?

end AuthoredStyle.Sheet
