import AuthoredStyle.Proofs.Scss.Declaration
import AuthoredStyle.Proofs.Sheet.Reads

/-!
# Written lines, read

What the lines of a written tree read as: declarations read as statements, an
opened block as its rules, and blocks with or without blank lines between them as
the rules of one behind those of the other.
-/

namespace AuthoredStyle.Scss

open Sheet
open Text (Blank)

def textOf (ls : List Line) : List Char := ls.flatMap fun l => l.text.toList ++ ['\n']

theorem textOf_append (a b : List Line) : textOf (a ++ b) = textOf a ++ textOf b :=
  List.flatMap_append

theorem textOf_cons (l : Line) (ls : List Line) :
    textOf (l :: ls) = l.text.toList ++ '\n' :: textOf ls := by
  simp [textOf]

theorem toList_serialize (o : Options) (tree : StyleNode) :
    (serialize o tree).toList = textOf (lines o 0 tree) := by
  simp [serialize, textOf, String.toList_join, List.flatMap_map]

theorem lines_eq (o : Options) (level : Nat) (n : StyleNode) :
    lines o level n =
      (sideBlocks o (level + 1) n.pseudo n.media n.hover ++
        childBlocks o (level + 1) n.children).foldl behind
          (.opening level n.selector :: declarations o (level + 1) n.styles) ++ [.closing level] := by
  cases n
  rw [lines]

theorem blank_indent (level : Nat) : Blank (Line.indent level).toList := by
  intro c hc
  rw [Line.indent, String.toList_ofList] at hc
  rw [List.eq_of_mem_replicate hc]
  rfl

theorem blank_newline : Blank ['\n'] := by
  intro c hc
  rw [List.mem_singleton.mp hc]
  rfl

section Reading

variable {file : String} {parents : List (List Char)} {o : Options}

theorem reads_blankLine : Reads file parents (textOf [.blank]) [] ∅ :=
  reads_blank blank_newline

theorem reads_statementLine {level : Nat} {text : String} (passes : PassesOver text.toList)
    (visible : Text.trim text.toList ≠ []) :
    Reads file parents (textOf [.statement level text]) [Text.trim text.toList] ∅ := by
  have line : textOf [.statement level text] =
      (Line.indent level).toList ++ (text.toList ++ [';']) ++ ['\n'] := by
    simp [textOf, Line.text]
  rw [line]
  exact ((reads_blank (blank_indent level)).append (reads_statement passes visible)).append
    (reads_blank blank_newline)

theorem reads_declarations {s : Styles} (h : IsWritable s) (level : Nat) :
    Reads file parents (textOf (declarations o level s)) (said o s) ∅ := by
  rw [declarations, said]
  rw [IsWritable] at h
  generalize s.entries = es at h ⊢
  induction es with
  | nil => exact reads_blank Text.blank_nil
  | cons e es ih =>
    obtain ⟨known, neutral⟩ := h e List.mem_cons_self
    have first : Reads file parents (textOf [.statement level (declaration o e.1 e.2)])
        [Text.trim (declaration o e.1 e.2).toList] ∅ :=
      reads_statementLine (passesOver_declaration known neutral)
        (trim_declaration_ne_nil known neutral)
    have later := ih fun d hd => h d (List.mem_cons_of_mem e hd)
    rw [List.map_cons, List.map_cons, ← List.singleton_append, textOf_append]
    exact first.append later

section Opened

variable {head : String} {inner : List Line} {inside said : List (List Char)} {rules : RuleSet}

theorem textOf_opened (level : Nat) (head : String) (inner : List Line) :
    textOf (.opening level head :: (inner ++ [.closing level])) =
      ((Line.indent level).toList ++ head.toList ++ [' ']) ++
        '{' :: (('\n' :: textOf inner ++ (Line.indent level).toList) ++ ['}']) ++ ['\n'] := by
  rw [textOf_cons, textOf_append]
  simp [textOf, Line.text]

theorem passesOver_lead (level : Nat) (passes : PassesOver head.toList) :
    PassesOver ((Line.indent level).toList ++ head.toList ++ [' ']) := by
  have margin := passesOver_blank (blank_indent level)
  have space : PassesOver [' '] := passesOver_of_all (by decide)
  exact (margin.append passes).append space

theorem trim_lead (level : Nat) (trimmed : Text.trim head.toList = head.toList) :
    Text.trim ((Line.indent level).toList ++ head.toList ++ [' ']) = head.toList := by
  have space : Blank [' '] := by
    intro c hc
    rw [List.mem_singleton.mp hc]
    rfl
  rw [Text.trim_append_blank _ space, Text.trim_blank_append _ (blank_indent level), trimmed]

theorem reads_inner (level : Nat) (h : Reads file inside (textOf inner) said rules) :
    Reads file inside ('\n' :: textOf inner ++ (Line.indent level).toList) said rules := by
  have margin : Reads file inside (Line.indent level).toList [] ∅ :=
    reads_blank (blank_indent level)
  simpa using ((reads_blank blank_newline).append h).append margin

theorem reads_opened (level : Nat) (passes : PassesOver head.toList)
    (trimmed : Text.trim head.toList = head.toList) (style : isAtRule head.toList = false)
    (h : Reads file (nest parents (selectorList head.toList)) (textOf inner) said rules) :
    Reads file parents (textOf (.opening level head :: (inner ++ [.closing level]))) []
      (rulesSaid (nest parents (selectorList head.toList)) said file ++ rules) := by
  have lead := trim_lead level trimmed
  rw [← lead] at style h
  have block := reads_block (passesOver_lead level passes) style (reads_inner level h)
  rw [lead] at block
  rw [textOf_opened]
  simpa using block.append (reads_blank blank_newline)

/-- Whatever a mixin's block holds is lost in reading. -/
theorem reads_mixin (level : Nat) (passes : PassesOver head.toList)
    (trimmed : Text.trim head.toList = head.toList) (at' : isAtRule head.toList = true)
    (h : Reads file inside (textOf inner) said rules) :
    Reads file parents (textOf (.opening level head :: (inner ++ [.closing level]))) [] ∅ := by
  have lead := trim_lead level trimmed
  rw [← lead] at at'
  have block : Reads file parents _ [] ∅ :=
    reads_atRule (passesOver_lead level passes) at' (reads_inner level h)
  rw [textOf_opened]
  simpa using block.append (reads_blank blank_newline)

end Opened

section Blocks

/-- The blocks read one behind the other as the rules. -/
inductive BlocksRead (file : String) (parents : List (List Char)) :
    List (List Line) → RuleSet → Prop where
  | nil : BlocksRead file parents [] ∅
  | cons {b : List Line} {bs : List (List Line)} {r rs : RuleSet}
      (first : Reads file parents (textOf b) [] r) (later : BlocksRead file parents bs rs) :
      BlocksRead file parents (b :: bs) (r ++ rs)

theorem BlocksRead.single {b : List Line} {r : RuleSet}
    (h : Reads file parents (textOf b) [] r) : BlocksRead file parents [b] r := by
  have one := BlocksRead.cons h .nil
  rwa [RuleSet.append_empty] at one

theorem BlocksRead.append {as bs : List (List Line)} {r rs : RuleSet}
    (ha : BlocksRead file parents as r) (hb : BlocksRead file parents bs rs) :
    BlocksRead file parents (as ++ bs) (r ++ rs) := by
  induction ha with
  | nil => exact hb
  | cons first later ih =>
    rw [List.cons_append, RuleSet.append_assoc]
    exact .cons first ih

/-- The line that opens the surrounding block stays in front, and blank lines
between the blocks change nothing. -/
theorem BlocksRead.behind {bs : List (List Line)} {rules : RuleSet}
    (h : BlocksRead file parents bs rules) {opening : Line} {written : List Line}
    {said : List (List Char)} {before : RuleSet}
    (start : Reads file parents (textOf written) said before) :
    ∃ inner, bs.foldl Scss.behind (opening :: written) = opening :: inner ∧
      Reads file parents (textOf inner) said (before ++ rules) := by
  induction h generalizing written before with
  | nil => exact ⟨written, rfl, by rwa [RuleSet.append_empty]⟩
  | @cons b bs r rs first later ih =>
    have next : ∃ more, Scss.behind (opening :: written) b = opening :: more ∧
        Reads file parents (textOf more) said (before ++ r) := by
      rw [Scss.behind]
      split
      · refine ⟨written ++ b, rfl, ?_⟩
        rw [textOf_append]
        simpa using start.append first
      · refine ⟨written ++ .blank :: b, rfl, ?_⟩
        rw [← List.singleton_append, textOf_append, textOf_append]
        simpa using start.append (reads_blankLine.append first)
    obtain ⟨more, e, reads⟩ := next
    obtain ⟨inner, e', reads'⟩ := ih reads
    refine ⟨inner, ?_, ?_⟩
    · rw [List.foldl_cons, e, e']
    · rwa [← RuleSet.append_assoc]

end Blocks

end Reading

end AuthoredStyle.Scss
