import AuthoredStyle.Proofs.Sheet.Ranges
import AuthoredStyle.Sheet.Reading

/-!
# Cuts that cannot fail

The ranges of blocks are taken out of a sheet's text, the last one first, and the body of
a block is scanned again. The other places where a sheet is cut or something is counted down, at
comments and at the argument of a pseudo-class, are written here with their checks as well. No
check fails, whatever the text, and the outcome is what is read without offsets.
-/

namespace AuthoredStyle.Sheet

open Text

/-! ## Cutting out -/

/-- The range of a media block, of keyframes or of a font face. -/
def PlacedItem.cutOut? : PlacedItem → Option (Nat × Nat)
  | .statement .. => none
  | .block prelude _ start stop =>
    if isDroppedAtRule prelude || leadsWith "@media" prelude then some (start, stop) else none

/-- The text without the ranges. The last one goes first, so that the offsets of the others stay. -/
def withoutRanges (text : List Char) (ranges : List (Nat × Nat)) : Except Fault (List Char) :=
  ranges.foldrM (fun range rest => withoutRange rest range.1 range.2) text

def withoutCutOutItems (text : List Char) : Except Fault (List Char) := do
  let items ← scanItems text
  withoutRanges text (items.filterMap PlacedItem.cutOut?)

theorem cutOut?_item? (start : Nat) (p : Piece) :
    (p.item? start).bind PlacedItem.cutOut? =
      if p.isCutOut then some (start, start + size p.source) else none := by
  cases p with
  | statement text ended =>
    rw [Piece.item?, statementItem?]
    split <;> rfl
  | block lead body => rfl
  | stray text => rfl
  | unclosed lead body => rfl

theorem withoutRanges_itemsAt (a : List Char) (ps : List Piece) :
    withoutRanges (a ++ sources ps) ((itemsAt (size a) ps).filterMap PlacedItem.cutOut?) =
      .ok (a ++ sources (ps.filter (!·.isCutOut))) := by
  induction ps generalizing a with
  | nil => rfl
  | cons p ps ih =>
    have later := ih (a ++ p.source)
    rw [size_append, List.append_assoc] at later
    have own : (p.item? (size a)).toList.filterMap PlacedItem.cutOut? =
        (if p.isCutOut then some (size a, size a + size p.source) else none).toList := by
      rw [← cutOut?_item?]
      cases p.item? (size a) with
      | none => rfl
      | some x => cases h : x.cutOut? <;> simp [h]
    rw [itemsAt, List.filterMap_append, own, sources]
    by_cases out : p.isCutOut = true
    · have kept : (p :: ps).filter (!·.isCutOut) = ps.filter (!·.isCutOut) := by simp [out]
      rw [if_pos out, kept, Option.toList_some, List.singleton_append, withoutRanges,
        List.foldrM_cons, ← withoutRanges, later, bind_ok]
      exact withoutRange_append a p.source _
    · have kept : (p :: ps).filter (!·.isCutOut) = p :: ps.filter (!·.isCutOut) := by simp [out]
      rw [if_neg out, kept, Option.toList_none, List.nil_append, later, sources, List.append_assoc]

/-! ## Comments -/

/-- The offset of the first occurrence. -/
def find? (pattern text : List Char) : Option Nat := (cut? pattern text).map (size ·.1)

theorem length_slice_lt {text t : List Char} {start stop : Nat}
    (cut : slice text start stop = .ok t) (some : start ≠ 0) : t.length < text.length := by
  obtain ⟨a, b, rfl, starts, -⟩ := slice_eq_ok_iff.mp cut
  have more : a ≠ [] := by
    rintro rfl
    exact some starts.symm
  have := List.length_pos_of_ne_nil more
  simp only [List.length_append]
  omega

/-- The text without its comments, each found and cut out by offsets. -/
def stripComments (text : List Char) : Except Fault (List Char) :=
  match find? ['/', '*'] text with
  | none => .ok text
  | some start => do
    let before ← slice text 0 start
    let inside ← slice text (start + 2) (size text)
    match find? ['*', '/'] inside with
    | none => return before
    | some stop =>
      match _cut : slice text (start + 2 + stop + 2) (size text) with
      | .error fault => .error fault
      | .ok rest => do
        let rest ← stripComments rest
        return before ++ rest
termination_by text.length
decreasing_by exact length_slice_lt _cut (by omega)

theorem uncomment_outside (text : List Char) :
    uncomment false text =
      match cut? ['/', '*'] text with
      | none => text
      | some (before, rest) => before ++ uncomment true rest := by
  induction text with
  | nil => rfl
  | cons c text ih =>
    cases text with
    | nil => by_cases h : '/' = c <;> simp [cut?, dropLead?, uncomment, h]
    | cons d s =>
      rw [uncomment, cut?]
      by_cases opens : c = '/' ∧ d = '*'
      · obtain ⟨rfl, rfl⟩ := opens
        rfl
      · have noLead : dropLead? ['/', '*'] (c :: d :: s) = none := by
          simp only [dropLead?]
          grind
        rw [if_neg Bool.false_ne_true, if_neg opens, ih, noLead]
        cases cut? ['/', '*'] (d :: s) <;> rfl

theorem uncomment_inside (text : List Char) :
    uncomment true text =
      match cut? ['*', '/'] text with
      | none => []
      | some (_, rest) => uncomment false rest := by
  induction text with
  | nil => rfl
  | cons c text ih =>
    cases text with
    | nil => by_cases h : '*' = c <;> simp [cut?, dropLead?, uncomment, h]
    | cons d s =>
      rw [uncomment, cut?]
      by_cases closes : c = '*' ∧ d = '/'
      · obtain ⟨rfl, rfl⟩ := closes
        rfl
      · have noLead : dropLead? ['*', '/'] (c :: d :: s) = none := by
          simp only [dropLead?]
          grind
        rw [if_pos rfl, if_neg closes, ih, noLead]
        cases cut? ['*', '/'] (d :: s) <;> rfl

theorem stripComments_eq (text : List Char) : stripComments text = .ok (dropComments text) := by
  obtain ⟨n, length⟩ : ∃ n, text.length = n := ⟨_, rfl⟩
  induction n using Nat.strong_induction_on generalizing text with
  | _ n ih =>
  rw [dropComments, uncomment_outside]
  cases opening : cut? ['/', '*'] text with
  | none =>
    rw [stripComments, find?, opening]
    rfl
  | some parts =>
    obtain ⟨before, inside⟩ := parts
    obtain rfl := eq_of_cut? opening
    have two (a b : Char) (first : IsAscii a) (second : IsAscii b) : size [a, b] = 2 := by
      simp [utf8Size_ascii first, utf8Size_ascii second]
    have front := slice_front before (['/', '*'] ++ inside)
    have behind := slice_behind (before ++ ['/', '*']) inside
    rw [size_append before, two _ _ (by decide) (by decide)] at behind
    rw [← List.append_assoc] at front
    rw [stripComments, find?, opening, Option.map_some]
    dsimp only
    rw [front, bind_ok, behind, bind_ok, uncomment_inside]
    cases closing : cut? ['*', '/'] inside with
    | none =>
      rw [find?, closing, List.append_nil]
      rfl
    | some parts' =>
      obtain ⟨comment, rest⟩ := parts'
      obtain rfl := eq_of_cut? closing
      have whole : before ++ ['/', '*'] ++ (comment ++ ['*', '/'] ++ rest) =
          before ++ ['/', '*'] ++ comment ++ ['*', '/'] ++ rest := by simp
      have later := slice_behind (before ++ ['/', '*'] ++ comment ++ ['*', '/']) rest
      rw [← whole] at later
      have offset : size (before ++ ['/', '*'] ++ comment ++ ['*', '/']) =
          size before + 2 + size comment + 2 := by
        simp only [size_append, two _ _ (show IsAscii '/' by decide) (show IsAscii '*' by decide),
          two _ _ (show IsAscii '*' by decide) (show IsAscii '/' by decide)]
      have shorter : rest.length < n := by
        rw [← length]
        simp
        omega
      have stripped := ih rest.length shorter rest rfl
      rw [offset] at later
      rw [find?, closing, Option.map_some]
      dsimp only
      split
      · rename_i fault cut
        rw [later] at cut
        cases cut
      · rename_i rest' cut
        rw [later] at cut
        cases cut
        rw [stripped]
        rfl

/-! ## The argument of a pseudo-class -/

/-- What follows the argument, from inside it: the parentheses are counted down. -/
def skipArgument (depth : Nat) : List Char → Except Fault (List Char)
  | [] => .ok []
  | c :: s =>
    if c = '(' then skipArgument (depth + 1) s
    else if c = ')' then
      match less depth with
      | .error fault => .error fault
      | .ok depth => if depth = 0 then .ok s else skipArgument depth s
    else skipArgument depth s

/-- The loop starts at the parenthesis itself, with none counted. -/
def withoutArgument (s : List Char) : Except Fault (List Char) :=
  if s.head? = some '(' then skipArgument 0 s else .ok s

theorem skipArgument_eq (depth : Nat) (s : List Char) :
    skipArgument (depth + 1) s = .ok (afterArgument (depth + 1) s) := by
  induction s generalizing depth with
  | nil => rfl
  | cons c s ih =>
    rw [skipArgument]
    by_cases opens : c = '('
    · subst opens
      rw [if_pos rfl, ih, afterArgument]
    rw [if_neg opens]
    by_cases closes : c = ')'
    · subst closes
      rw [if_pos rfl, afterArgument]
      cases depth with
      | zero => rfl
      | succ depth => exact ih depth
    · rw [if_neg closes, ih, afterArgument]
      · exact opens
      · exact closes

theorem withoutArgument_eq (s : List Char) : withoutArgument s = .ok (dropArgument s) := by
  unfold withoutArgument dropArgument
  split
  · rename_i starts
    cases s with
    | nil => cases starts
    | cons c s =>
      cases starts
      exact skipArgument_eq 0 s
  · rename_i other
    split
    · exact absurd rfl other
    · rfl

/-! ## All checks together -/

/-- The items of the statements and closed blocks outside all blocks. -/
def itemsOf (text : List Char) : List PlacedItem := itemsAt 0 (pieces text)

theorem byte_scan_is_safe_and_exact (text : List Char) :
    scanItems text = .ok (itemsOf text) ∧
      ((itemsOf text).Pairwise fun x y => x.stop ≤ y.start) ∧
      (∀ x ∈ itemsOf text, x.Within text ∧ x.Exact text) ∧
      (∀ lead body, .block lead body ∈ pieces text →
        scanItems (sources body) = .ok (itemsAt 0 body)) ∧
      (∀ opening, (bytes text)[opening]? = some (code '{') →
        ∃ close, matchingBrace (bytes text) 0 opening = .ok close) ∧
      withoutArgument text = .ok (dropArgument text) ∧
      stripComments text = .ok (dropComments text) ∧
      withoutCutOutItems text = .ok (withoutCutOuts text) := by
  have balanced : ∀ lead body, .block lead body ∈ pieces text → BracesMatch (sources body) :=
    fun lead body h => (enclosed_of_block h).1.bracesMatch
  obtain ⟨apart, placed⟩ := placed_itemsAt [] balanced
  rw [List.nil_append, sources_pieces] at placed
  refine ⟨scanItems_eq text, apart, fun x hx => (placed x hx).2, fun lead body h => ?_,
    fun opening here => ?_, withoutArgument_eq text, stripComments_eq text, ?_⟩
  · rw [scanItems_eq, (enclosed_of_block h).2]
  · rw [matchingBrace_opening here]
    exact exists_matchingBrace _ Nat.one_ne_zero _
  · have removed := withoutRanges_itemsAt [] (pieces text)
    rw [List.nil_append, sources_pieces] at removed
    rw [withoutCutOutItems, scanItems_eq, bind_ok]
    exact removed

end AuthoredStyle.Sheet
