import AuthoredStyle.Proofs.Sheet.Reads
import AuthoredStyle.Proofs.Sheet.Rereading
import AuthoredStyle.Proofs.Sheet.SelectorList

/-!
# Nested blocks and flat rules

A sheet of nested blocks says the same as the flat sheet in which each block stands by
itself, depth first, with its own declarations and its selectors below those of the
blocks around it. Declarations behind an inner block belong to the outer one. They may be
any texts that a scan passes over and in which no comment opens, and blanks may stand
wherever they separate nothing.
-/

namespace AuthoredStyle.Sheet

open Text (Blank collapse)

/-- What may stand in a style block. -/
inductive Item where
  /-- The text in front of a semicolon. -/
  | declaration (text : List Char)
  /-- A block, with blanks in front of its closing brace. -/
  | block (selectors : List (List Char)) (body : List Item) (tail : List Char)

namespace Item

def isDeclaration : Item → Bool
  | .declaration _ => true
  | .block .. => false

mutual

def text : Item → List Char
  | .declaration text => text ++ [';']
  | .block selectors body tail => listed selectors ++ '{' :: (texts body ++ tail ++ ['}'])

def texts : List Item → List Char
  | [] => []
  | i :: is => i.text ++ texts is

end

mutual

/-- Every selector is plain, and every declaration is passed over and free of comments. -/
def IsPlain : Item → Prop
  | .declaration text => PassesOver text ∧ OpensNoComment text
  | .block selectors body tail =>
    selectors ≠ [] ∧ (∀ s ∈ selectors, IsPlainSelector s) ∧ ArePlain body ∧ Blank tail

def ArePlain : List Item → Prop
  | [] => True
  | i :: is => i.IsPlain ∧ ArePlain is

end

mutual

/-- The flat rules of a block below its parents, its own in front of its inner blocks'. -/
def unnest (parents : List (List Char)) : Item → List Item
  | .declaration _ => []
  | .block selectors body _ =>
    let whole := pairs parents selectors
    .block whole (body.filter isDeclaration) [] :: unnestAll whole body

def unnestAll (parents : List (List Char)) : List Item → List Item
  | [] => []
  | i :: is => i.unnest parents ++ unnestAll parents is

end

mutual

/-- The piece that the item is cut as. -/
def piece : Item → Piece
  | .declaration text => .statement text true
  | .block selectors body tail =>
    .block (listed selectors) (pieces body ++ [.statement tail false])

def pieces : List Item → List Piece
  | [] => []
  | i :: is => i.piece :: pieces is

end

theorem arePlain_iff {is : List Item} : ArePlain is ↔ ∀ i ∈ is, i.IsPlain := by
  induction is with
  | nil => simp [ArePlain]
  | cons i is ih => simp [ArePlain, ih]

theorem pieces_eq (is : List Item) : pieces is = is.map piece := by
  induction is with
  | nil => rfl
  | cons i is ih => rw [pieces, ih, List.map_cons]

mutual

theorem source_piece : (i : Item) → i.piece.source = i.text
  | .declaration text => rfl
  | .block selectors body tail => by
    rw [piece, Piece.source, sources_append, sources_pieces body, text]
    simp [sources, Piece.source]

theorem sources_pieces : (is : List Item) → sources (pieces is) = texts is
  | [] => rfl
  | i :: is => by rw [pieces, sources, source_piece i, sources_pieces is, texts]

end

/-! ## Cutting an item -/

section Cutting

theorem passesOver_listed {selectors : List (List Char)}
    (plain : ∀ s ∈ selectors, IsPlainSelector s) : PassesOver (listed selectors) := by
  refine passesOver_ordinary fun c hc => ?_
  rcases mem_listed hc with rfl | ⟨s, hs, mem⟩
  · decide
  · exact ((plain s hs).chars c mem).isOrdinary

theorem isAtRule_listed {selectors : List (List Char)}
    (plain : ∀ s ∈ selectors, IsPlainSelector s) :
    isAtRule (Text.trim (listed selectors)) = false := by
  rw [isAtRule, decide_eq_false_iff_not]
  intro at'
  have mem := (Text.trim_sublist _).subset (List.mem_of_mem_head? at')
  rcases mem_listed mem with comma | ⟨s, hs, inside⟩
  · cases comma
  · exact (plain s hs).chars '@' inside (by decide)

mutual

theorem cutsAlone_piece : (i : Item) → i.IsPlain → CutsAlone i.piece
  | .declaration _, plain => cutsAlone_statement plain.1
  | .block _ body _, ⟨_, plain, inner, blank⟩ =>
    cutsAlone_block (passesOver_listed plain) (cutsAlone_pieces body inner) (passesOver_blank blank)

theorem cutsAlone_pieces : (is : List Item) → ArePlain is → ∀ p ∈ pieces is, CutsAlone p
  | [], _ => fun _ hp => absurd hp List.not_mem_nil
  | i :: is, ⟨first, later⟩ => by
    intro p hp
    rcases List.mem_cons.mp hp with rfl | hp
    · exact cutsAlone_piece i first
    · exact cutsAlone_pieces is later p hp

end

theorem pieces_texts {is : List Item} (plain : ArePlain is) {tail : List Char}
    (blank : Blank tail) :
    Sheet.pieces (texts is ++ tail) = pieces is ++ [.statement tail false] := by
  have again : CutsAgain (pieces is ++ [.statement tail false]) :=
    ⟨_, _, rfl, cutsAlone_pieces is plain, cutsLast_statement (passesOver_blank blank), rfl⟩
  have source : sources (pieces is ++ [.statement tail false]) = texts is ++ tail := by
    rw [sources_append, sources_pieces]
    simp [sources, Piece.source]
  rw [← source, again.pieces_sources]

theorem allStyle_pieces {is : List Item} (plain : ArePlain is) (tail : List Char) :
    AllStyle (pieces is ++ [.statement tail false]) := by
  intro p hp prelude under'
  rw [pieces_eq] at hp
  rcases List.mem_append.mp hp with hp | hp
  · obtain ⟨i, hi, rfl⟩ := List.mem_map.mp hp
    have here := arePlain_iff.mp plain i hi
    cases i with
    | declaration text => cases under'
    | block selectors body inner =>
      cases under'
      exact isAtRule_listed here.2.1
  · rw [List.mem_singleton.mp hp] at under'
    cases under'

end Cutting

/-! ## No comments -/

section Comments

theorem settled_listed {selectors : List (List Char)}
    (plain : ∀ s ∈ selectors, IsPlainSelector s) : Settled (listed selectors) := by
  refine settled_of_not_mem fun slash => ?_
  rcases mem_listed slash with comma | ⟨s, hs, inside⟩
  · cases comma
  · exact (plain s hs).chars '/' inside (by decide)

theorem settled_blank {w : List Char} (blank : Blank w) : Settled w :=
  settled_of_not_mem fun slash => absurd (blank '/' slash) (by decide)

mutual

theorem settled_text : (i : Item) → i.IsPlain → Settled i.text
  | .declaration _, plain => plain.2.settled_snoc (by decide) (by decide)
  | .block _ body _, ⟨_, plain, inner, blank⟩ => by
    have closing : Settled ['}'] := settled_of_not_mem (by decide)
    have opening : Settled ['{'] := settled_of_not_mem (by decide)
    have inside := ((settled_texts body inner).append (settled_blank blank)).append closing
    exact (settled_listed plain).append (opening.append inside)

theorem settled_texts : (is : List Item) → ArePlain is → Settled (texts is)
  | [], _ => settled_of_not_mem List.not_mem_nil
  | i :: is, ⟨first, later⟩ => (settled_text i first).append (settled_texts is later)

end

end Comments

/-! ## Flat blocks -/

section Flat

theorem ArePlain.filter {is : List Item} (plain : ArePlain is) (keep : Item → Bool) :
    ArePlain (is.filter keep) :=
  arePlain_iff.mpr fun i hi => arePlain_iff.mp plain i (List.mem_filter.mp hi).1

mutual

theorem arePlain_unnest : (i : Item) → i.IsPlain → {parents : List (List Char)} →
    (∀ p ∈ parents, IsTrimmed p) → ArePlain (i.unnest parents)
  | .declaration _, _, _, _ => trivial
  | .block selectors body _, ⟨named, plain, inner, _⟩, parents, trimmed => by
    have whole := isTrimmed_of_mem_pairs trimmed plain
    refine ⟨⟨pairs_ne_nil parents named, fun s hs => (whole s hs).isPlainSelector,
      inner.filter isDeclaration, Text.blank_nil⟩, ?_⟩
    exact arePlain_unnestAll body inner whole

theorem arePlain_unnestAll : (is : List Item) → ArePlain is → {parents : List (List Char)} →
    (∀ p ∈ parents, IsTrimmed p) → ArePlain (unnestAll parents is)
  | [], _, _, _ => trivial
  | i :: is, ⟨first, later⟩, _, trimmed => by
    have flat := arePlain_iff.mp (arePlain_unnest i first trimmed)
    have rest := arePlain_iff.mp (arePlain_unnestAll is later trimmed)
    rw [unnestAll, arePlain_iff]
    intro j hj
    exact (List.mem_append.mp hj).elim (flat j) (rest j)

end

end Flat

/-! ## What the blocks say -/

section Rules

variable {file : String} {parents : List (List Char)}

theorem statements_pieces_filter (is : List Item) :
    statements (pieces (is.filter isDeclaration)) = statements (pieces is) := by
  rw [pieces_eq, pieces_eq, statements, statements, List.filterMap_map, List.filterMap_map,
    List.filterMap_filter]
  refine List.filterMap_congr fun i _ => ?_
  cases i <;> rfl

theorem nestedRules_pieces_filter (is : List Item) :
    nestedRules file parents (pieces (is.filter isDeclaration)) = ∅ := by
  induction is with
  | nil => rfl
  | cons i is ih =>
    cases i with
    | declaration text => exact ih
    | block selectors body tail => exact ih

/-- A block gives the rules of its statements, and its inner blocks theirs. -/
theorem styleRules_block (file : String) (parents : List (List Char))
    {selectors : List (List Char)} (named : selectors ≠ [])
    (plain : ∀ s ∈ selectors, IsPlainSelector s) (body : List Item) {tail : List Char}
    (blank : Blank tail) :
    (Item.block selectors body tail).piece.styleRules file parents =
      rulesSaid (nest parents (selectors.map collapse)) (statements (pieces body)) file ++
        nestedRules file (nest parents (selectors.map collapse)) (pieces body) := by
  rw [piece, Piece.styleRules, isAtRule_listed plain, selectorList_listed named plain]
  simp only [Bool.false_eq_true, if_false]
  rw [ownRules_eq, statements_blank _ blank, nestedRules_statement]

mutual

theorem styleRules_unnest : (i : Item) → i.IsPlain → {parents : List (List Char)} →
    (∀ p ∈ parents, IsTrimmed p) →
    i.piece.styleRules file (parents.map collapse) = nestedRules file [] (pieces (i.unnest parents))
  | .declaration _, _, _, _ => rfl
  | .block selectors body tail, ⟨named, plain, inner, blank⟩, parents, trimmed => by
    have whole := isTrimmed_of_mem_pairs trimmed plain
    have nested := styleRules_block file (parents.map collapse) named plain body blank
    have flat := styleRules_block file [] (pairs_ne_nil parents named)
      (fun s hs => (whole s hs).isPlainSelector) (body.filter isDeclaration) Text.blank_nil
    have top (selectors : List (List Char)) : nest [] selectors = selectors := rfl
    -- Below its parents the block has the selectors that its flat block has by itself, and
    -- the flat block has no inner blocks.
    rw [nest_collapse trimmed plain] at nested
    rw [top, statements_pieces_filter, nestedRules_pieces_filter, RuleSet.append_empty] at flat
    rw [nested, nestedRules_unnestAll body inner whole, unnest, pieces, nestedRules, flat]

theorem nestedRules_unnestAll : (is : List Item) → ArePlain is → {parents : List (List Char)} →
    (∀ p ∈ parents, IsTrimmed p) →
    nestedRules file (parents.map collapse) (pieces is) =
      nestedRules file [] (pieces (unnestAll parents is))
  | [], _, _, _ => rfl
  | i :: is, ⟨first, later⟩, _, trimmed => by
    have both (as bs : List Item) : pieces (as ++ bs) = pieces as ++ pieces bs := by
      rw [pieces_eq, pieces_eq, pieces_eq, List.map_append]
    rw [pieces, nestedRules, styleRules_unnest i first trimmed,
      nestedRules_unnestAll is later trimmed, unnestAll, both, nestedRules_append]

end

theorem read_texts (file : String) {is : List Item} (plain : ArePlain is) {tail : List Char}
    (blank : Blank tail) :
    read (String.ofList (texts is ++ tail)) file = nestedRules file [] (pieces is) := by
  have uncommented := ((settled_texts is plain).append (settled_blank blank)).opensNone
  have cut := pieces_texts plain blank
  rw [read_allStyle, String.toList_ofList, cut, nestedRules_statement]
  · rwa [String.toList_ofList]
  · rw [String.toList_ofList, cut]
    exact allStyle_pieces plain tail

end Rules

end Item

/-- A sheet of nested blocks reads as the sheet of its flat blocks. -/
theorem read_unnest (sheet : List Item) (tail : List Char) (file : String)
    (plain : Item.ArePlain sheet) (blank : Blank tail) :
    read (String.ofList (Item.texts sheet ++ tail)) file =
      read (String.ofList (Item.texts (Item.unnestAll [] sheet))) file := by
  have none : ∀ p ∈ ([] : List (List Char)), IsTrimmed p := fun p hp => absurd hp List.not_mem_nil
  have nested := Item.read_texts file plain blank
  have flat := Item.read_texts file (Item.arePlain_unnestAll sheet plain none) Text.blank_nil
  rw [List.append_nil] at flat
  rw [nested, flat, ← Item.nestedRules_unnestAll sheet plain none]
  rfl

def cardSheet : List Item :=
  [.block [".card ".toList, "\n#main".toList]
    [.declaration "top:0".toList,
      .block ["&:hover".toList, " p".toList] [.declaration " left:0".toList] ['\n'],
      .declaration "right:0".toList] []]

example : Item.texts (Item.unnestAll [] cardSheet) =
    (".card,#main\x7btop:0;right:0;\x7d" ++
      ".card:hover,.card p,#main:hover,#main p\x7b left:0;\x7d").toList := by
  decide +kernel

theorem read_unnest_of_card :
    Item.ArePlain cardSheet ∧ Blank ['\n'] ∧
      read (String.ofList (Item.texts cardSheet ++ ['\n'])) "" =
        read (String.ofList (Item.texts (Item.unnestAll [] cardSheet))) "" ∧
      (read (String.ofList (Item.texts cardSheet ++ ['\n'])) "").plain.map (·.selector) =
        [".card", "#main", ".card p", "#main p"] := by
  have declared (text : List Char) (h : text.all (IsOrdinary ·) = true ∧ '*' ∉ text) :
      (Item.declaration text).IsPlain :=
    ⟨passesOver_of_all h.1, opensNoComment_of_not_mem h.2⟩
  have inner : Item.IsPlain (.block ["&:hover".toList, " p".toList]
      [.declaration " left:0".toList] ['\n']) :=
    ⟨by simp, by decide +kernel, ⟨declared _ (by decide +kernel), trivial⟩, by decide⟩
  have plain : Item.ArePlain cardSheet :=
    ⟨⟨by simp, by decide +kernel, ⟨declared _ (by decide +kernel), inner,
      declared _ (by decide +kernel), trivial⟩, Text.blank_nil⟩, trivial⟩
  have ends : Blank ['\n'] := by decide
  exact ⟨plain, ends, read_unnest cardSheet ['\n'] "" plain ends, by decide +kernel⟩

end AuthoredStyle.Sheet
