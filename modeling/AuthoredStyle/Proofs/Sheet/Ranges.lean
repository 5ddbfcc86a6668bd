import AuthoredStyle.Proofs.Sheet.OffsetItems
import AuthoredStyle.Proofs.Text.Collapse

/-!
# Where the items of a sheet stand

The items found by offsets stand one behind the other, each in a range of characters that holds
it and nothing more. A block's range is its prelude between blanks and its body between braces,
and in the body, strings left aside, every brace has its partner.
-/

namespace AuthoredStyle.Sheet

open Text

/-! ## Braces outside strings -/

/-- The characters outside quoted strings; the quote that opens one is outside. -/
def unquoted (r : Reading) : List Char → List Char
  | [] => []
  | c :: s => if r = .bare then c :: unquoted (r.next c) s else unquoted (r.next c) s

/-- Outside strings no brace closes before one opens, and each that opens is closed. -/
structure BracesMatch (text : List Char) : Prop where
  within : ∀ front, front <+: text →
    (unquoted .bare front).count '}' ≤ (unquoted .bare front).count '{'
  closed : (unquoted .bare text).count '}' = (unquoted .bare text).count '{'

/-- As long as no brace closes nothing, the open blocks are the braces less their partners. -/
theorem Scan.frames_run {s : Scan} {text : List Char} (unstrayed : (s.run text).Unstrayed) :
    (s.run text).frames.length + (unquoted s.reading text).count '}' =
      s.frames.length + (unquoted s.reading text).count '{' := by
  induction text generalizing s with
  | nil => rfl
  | cons c text ih =>
    have later : ((s.step c).run text).Unstrayed := unstrayed
    have rest := ih later
    rw [s.reading_step c] at rest
    rw [Scan.run_cons, unquoted]
    by_cases bare : s.reading = .bare
    · rw [if_pos bare]
      by_cases opening : c = '{'
      · subst opening
        rw [Scan.step_opening bare] at rest ⊢
        simp [Scan.openBlock] at rest ⊢
        omega
      by_cases closing : c = '}'
      · subst closing
        obtain ⟨f, outer, framed⟩ := List.exists_cons_of_ne_nil fun none =>
          Scan.closes_of_strayed later.of_run ⟨rfl, bare, none⟩
        rw [Scan.step_closing bare] at rest ⊢
        simp [Scan.closeBlock, framed] at rest ⊢
        omega
      · rw [Scan.frames_step fun _ => ⟨opening, closing⟩] at rest
        rw [List.count_cons_of_ne opening, List.count_cons_of_ne closing, rest]
    · rw [if_neg bare]
      rwa [Scan.frames_step fun now => absurd now bare] at rest

theorem Enclosed.bracesMatch {text : List Char} (h : Enclosed text) : BracesMatch text where
  within := by
    rintro front ⟨behind, rfl⟩
    have unstrayed := h.unstrayed
    rw [Scan.run_append] at unstrayed
    have count := Scan.frames_run unstrayed.of_run
    change _ + (unquoted .bare front).count '}' = 0 + (unquoted .bare front).count '{' at count
    omega
  closed := by
    have count := Scan.frames_run h.unstrayed
    rw [h.frames] at count
    change 0 + (unquoted .bare text).count '}' = 0 + (unquoted .bare text).count '{' at count
    omega

theorem enclosed_of_block {text lead : List Char} {body : List Piece}
    (h : .block lead body ∈ pieces text) :
    Enclosed (sources body) ∧ pieces (sources body) = body := by
  obtain ⟨front, last, cut, whole, ends⟩ := exists_whole_last text
  rw [cut] at h
  rcases List.mem_append.mp h with early | late
  · cases whole _ early with
    | block _ enclosed =>
      rw [sources_pieces]
      exact ⟨enclosed, rfl⟩
  · rw [List.mem_singleton] at late
    rw [← late] at ends
    cases ends

/-! ## Where an item stands -/

/-- The item's range is one of characters. -/
structure PlacedItem.Within (text : List Char) (x : PlacedItem) : Prop where
  nonempty : x.start < x.stop
  inBounds : x.stop ≤ size text
  start : Boundary text x.start
  stop : Boundary text x.stop

/-- The range holds the item and nothing more. -/
def PlacedItem.Exact (text : List Char) : PlacedItem → Prop
  | .statement said start => slice text start (start + size said) = .ok said
  | .block prelude body start stop =>
    BracesMatch body ∧ ∃ gap gap', Blank gap ∧ Blank gap' ∧
      slice text start stop = .ok (gap ++ prelude ++ gap' ++ '{' :: (body ++ ['}']))

theorem size_pos {s : List Char} (h : s ≠ []) : 0 < size s := by
  obtain ⟨c, rest, rfl⟩ := List.exists_cons_of_ne_nil h
  rw [size_cons]
  exact Nat.add_pos_left c.utf8Size_pos _

/-- A range that holds a text is one of characters. -/
theorem PlacedItem.Within.of_parts {x : PlacedItem} (a : List Char) {t : List Char} (b : List Char)
    (some : t ≠ []) (start : x.start = size a) (stop : x.stop = size a + size t) :
    x.Within (a ++ t ++ b) where
  nonempty := by
    have := size_pos some
    omega
  inBounds := by
    simp only [size_append]
    omega
  start := ⟨a, t ++ b, List.append_assoc a t b, start.symm⟩
  stop := ⟨a ++ t, b, rfl, by rw [stop, size_append]⟩

theorem blank_takeWhile (s : List Char) : Blank (s.takeWhile isBlank) :=
  fun _ hc => List.all_eq_true.mp List.all_takeWhile _ hc

theorem exists_around_trim (s : List Char) :
    ∃ gap, Blank gap ∧ s = s.takeWhile isBlank ++ trim s ++ gap := by
  obtain ⟨gap, blank, rest⟩ := exists_trimEnd_append (trimStart s)
  refine ⟨gap, blank, ?_⟩
  rw [trim, ← trimEnd_trimStart, List.append_assoc, ← rest]
  exact List.takeWhile_append_dropWhile.symm

/-- What is found of a piece stands inside the piece. -/
theorem placed_of_item? {p : Piece} {x : PlacedItem} (a b : List Char)
    (balanced : ∀ lead body, p = .block lead body → BracesMatch (sources body))
    (found : p.item? (size a) = some x) :
    size a ≤ x.start ∧ x.stop ≤ size (a ++ p.source) ∧
      x.Within (a ++ p.source ++ b) ∧ x.Exact (a ++ p.source ++ b) := by
  cases p with
  | statement text ended =>
    obtain ⟨gap, -, whole⟩ := exists_around_trim text
    rw [Piece.item?, statementItem?] at found
    split at found
    · cases found
    · rename_i said
      cases found
      have some : trim text ≠ [] := fun none => said (by rw [none]; rfl)
      have parts : a ++ (Piece.statement text ended).source ++ b =
          a ++ text.takeWhile isBlank ++ trim text ++
            (gap ++ (if ended then [';'] else []) ++ b) := by
        have source : (Piece.statement text ended).source =
            text ++ if ended then [';'] else [] := by
          cases ended <;> simp [Piece.source]
        rw [source]
        nth_rewrite 1 [whole]
        simp
      have fits : size text = size (text.takeWhile isBlank) + size (trim text) + size gap := by
        nth_rewrite 1 [whole]
        simp [Nat.add_assoc]
      refine ⟨Nat.le_add_right _ _, ?_, ?_, ?_⟩
      · have source : size text ≤ size (Piece.statement text ended).source := by
          cases ended <;> simp [Piece.source]
        simp only [PlacedItem.stop, size_append]
        omega
      · rw [parts]
        refine PlacedItem.Within.of_parts _ _ some ?_ ?_
        · rw [size_append]
          rfl
        · rw [size_append]
          rfl
      · rw [parts, PlacedItem.Exact, ← size_append]
        exact slice_append _ _ _
  | block lead body =>
    cases found
    obtain ⟨gap, blank, whole⟩ := exists_around_trim lead
    have some : (Piece.block lead body).source ≠ [] := by simp [Piece.source]
    refine ⟨Nat.le_refl _, Nat.le_of_eq (size_append _ _).symm,
      PlacedItem.Within.of_parts a b some rfl rfl, balanced lead body rfl, lead.takeWhile isBlank, gap, blank_takeWhile lead, blank, ?_⟩
    rw [← whole]
    exact slice_append _ _ _
  | stray text => cases found
  | unclosed lead body => cases found

theorem placed_itemsAt (a : List Char) {ps : List Piece}
    (balanced : ∀ lead body, .block lead body ∈ ps → BracesMatch (sources body)) :
    ((itemsAt (size a) ps).Pairwise fun x y => x.stop ≤ y.start) ∧
      ∀ x ∈ itemsAt (size a) ps,
        size a ≤ x.start ∧ x.Within (a ++ sources ps) ∧ x.Exact (a ++ sources ps) := by
  induction ps generalizing a with
  | nil => exact ⟨.nil, fun x hx => absurd hx List.not_mem_nil⟩
  | cons p ps ih =>
    obtain ⟨apart, later⟩ := ih (a ++ p.source) fun lead body h =>
      balanced lead body (List.mem_cons_of_mem p h)
    have first {x : PlacedItem} (found : p.item? (size a) = some x) :=
      placed_of_item? a (sources ps)
        (fun lead body h => balanced lead body (h ▸ List.mem_cons_self)) found
    rw [size_append] at apart later
    rw [itemsAt, sources]
    refine ⟨List.pairwise_append.mpr ⟨?_, apart, ?_⟩, ?_⟩
    · cases p.item? (size a) with
      | none => exact .nil
      | some x => exact List.pairwise_singleton _ x
    · intro x hx y hy
      have before := (first (Option.mem_toList.mp hx)).2.1
      have behind := (later y hy).1
      rw [size_append] at before
      exact Nat.le_trans before behind
    · intro x hx
      rcases List.mem_append.mp hx with here | there
      · obtain ⟨start, -, within, exact'⟩ := first (Option.mem_toList.mp here)
        rw [← List.append_assoc]
        exact ⟨start, within, exact'⟩
      · obtain ⟨start, within, exact'⟩ := later x there
        rw [List.append_assoc] at within exact'
        exact ⟨Nat.le_trans (Nat.le_add_right _ _) start, within, exact'⟩

end AuthoredStyle.Sheet
