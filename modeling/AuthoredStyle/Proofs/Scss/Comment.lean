import AuthoredStyle.Proofs.Scss.Writable

/-!
# No comment opens in written SCSS

Each line of a writable tree is free of comments, and lines are kept apart, so the
whole text is read as it stands.
-/

namespace AuthoredStyle.Scss

open Sheet

variable {o : Options}

def IsCalm (l : Line) : Prop := OpensNoComment l.text.toList

theorem isCalm_blank : IsCalm .blank := opensNoComment_of_not_mem List.not_mem_nil

theorem star_not_mem_indent (level : Nat) : '*' ∉ (Line.indent level).toList := by
  intro h
  exact absurd (blank_indent level _ h) (by decide)

theorem isCalm_closing (level : Nat) : IsCalm (.closing level) := by
  have margin := star_not_mem_indent level
  exact opensNoComment_of_not_mem (by simp [Line.text, margin])

theorem isCalm_opening (level : Nat) {head : String} (h : '*' ∉ head.toList) :
    IsCalm (.opening level head) := by
  have margin := star_not_mem_indent level
  exact opensNoComment_of_not_mem (by simp [Line.text, margin, h])

theorem isCalm_statement (level : Nat) {text : String} (h : OpensNoComment text.toList) :
    IsCalm (.statement level text) := by
  have margin : OpensNoComment (Line.indent level).toList :=
    opensNoComment_of_not_mem (star_not_mem_indent level)
  have semicolon : OpensNoComment [';'] := opensNoComment_of_not_mem (by decide)
  have border : (Line.indent level).toList.getLast? ≠ some '/' := by
    intro last
    exact absurd (blank_indent level _ (List.mem_of_getLast? last)) (by decide)
  rw [IsCalm, Line.text, String.toList_append, String.toList_append]
  exact (margin.append h (.inl border)).append semicolon (.inr (by decide))

theorem isCalm_declarations {s : Styles} (hs : IsWritable s) (level : Nat) :
    ∀ l ∈ declarations o level s, IsCalm l := by
  intro l h
  obtain ⟨e, he, rfl⟩ := List.mem_map.mp h
  obtain ⟨known, neutral⟩ := hs e he
  exact isCalm_statement level (opensNoComment_declaration known neutral)

/-- All lines of the blocks are calm. -/
def AreCalm (bs : List (List Line)) : Prop := ∀ b ∈ bs, ∀ l ∈ b, IsCalm l

theorem AreCalm.append {as bs : List (List Line)} (ha : AreCalm as) (hb : AreCalm bs) :
    AreCalm (as ++ bs) := by
  intro b h
  rcases List.mem_append.mp h with h | h
  · exact ha b h
  · exact hb b h

theorem areCalm_nil : AreCalm [] := fun _ h => absurd h List.not_mem_nil

theorem areCalm_block {s : Styles} (hs : IsWritable s) (level : Nat) {head : String}
    (h : '*' ∉ head.toList) : AreCalm (block o level head s) := by
  rw [block]
  split
  · exact areCalm_nil
  · intro b hb l hl
    rw [List.mem_singleton.mp hb] at hl
    rcases List.mem_append.mp hl with hl | hl
    · rcases List.mem_cons.mp hl with rfl | hl
      · exact isCalm_opening level h
      · exact isCalm_declarations hs (level + 1) l hl
    · exact List.mem_singleton.mp hl ▸ isCalm_closing level

theorem areCalm_sideBlocks {n : StyleNode} (writable : n.IsWritable) (level : Nat) :
    AreCalm (sideBlocks o level n.pseudo n.media n.hover) := by
  have boxes : AreCalm (n.pseudo.entries.flatMap fun e => block o level ("&" ++ e.1) e.2) := by
    intro b hb
    obtain ⟨e, he, hb⟩ := List.mem_flatMap.mp hb
    obtain ⟨element, name⟩ := writable.boxes e he
    refine areCalm_block (writable.pseudo e he) level ?_ b hb
    rw [name]
    cases element <;> decide
  have media : AreCalm (if o.media then
      n.media.entries.flatMap fun e => block o level ("@include " ++ e.1) e.2 else []) := by
    split
    · intro b hb
      obtain ⟨e, he, hb⟩ := List.mem_flatMap.mp hb
      have absent : '*' ∉ e.1.toList :=
        (writable.breakpoints e he).isPathWord.not_mem (by decide)
      refine areCalm_block (writable.media e he) level ?_ b hb
      rw [String.toList_append, List.mem_append, not_or]
      exact ⟨by decide, absent⟩
    · exact areCalm_nil
  have hover : AreCalm (if o.hover then block o level "@include hover()" n.hover else []) := by
    split
    · exact areCalm_block writable.hover level (by decide)
    · exact areCalm_nil
  exact (boxes.append media).append hover

theorem mem_foldl_behind {l : Line} {written : List Line} {bs : List (List Line)}
    (h : l ∈ bs.foldl behind written) : l = .blank ∨ l ∈ written ∨ ∃ b ∈ bs, l ∈ b := by
  induction bs generalizing written with
  | nil => exact .inr (.inl h)
  | cons b bs ih =>
    rcases ih h with rfl | h | ⟨c, hc, hl⟩
    · exact .inl rfl
    · have parts : l = .blank ∨ l ∈ written ∨ l ∈ b := by
        rw [behind] at h
        split at h
        · exact .inr (List.mem_append.mp h)
        · rcases List.mem_append.mp h with h | h
          · exact .inr (.inl h)
          · exact (List.mem_cons.mp h).imp_right .inr
      exact parts.imp_right fun h => h.imp_right fun hl => ⟨b, List.mem_cons_self, hl⟩
    · exact .inr (.inr ⟨c, List.mem_cons_of_mem b hc, hl⟩)

/-- Blank lines between blocks are calm as well. -/
theorem isCalm_of_children {n : StyleNode} {level : Nat} (writable : n.IsWritable)
    (below : AreCalm (childBlocks o (level + 1) n.children)) : ∀ l ∈ lines o level n, IsCalm l := by
  intro l h
  rw [lines_eq] at h
  rcases List.mem_append.mp h with h | h
  · rcases mem_foldl_behind h with rfl | h | ⟨b, hb, hl⟩
    · exact isCalm_blank
    · rcases List.mem_cons.mp h with rfl | h
      · exact isCalm_opening level (writable.selector.isPathWord.not_mem (by decide))
      · exact isCalm_declarations writable.styles (level + 1) l h
    · exact ((areCalm_sideBlocks writable (level + 1)).append below) b hb l hl
  · exact List.mem_singleton.mp h ▸ isCalm_closing level

mutual

theorem isCalm_of_mem_lines (o : Options) (n : StyleNode)
    (writable : ∀ m ∈ n.nodes, m.IsWritable) (level : Nat) : ∀ l ∈ lines o level n, IsCalm l := by
  match n with
  | ⟨selector, path, tag, id, classes, styles, pseudo, media, hover, children, depth⟩ =>
    rw [StyleNode.nodes_eq] at writable
    have below := fun m hm => writable m (List.mem_cons_of_mem _ hm)
    exact isCalm_of_children (writable _ List.mem_cons_self)
      (areCalm_childBlocks o children below (level + 1))

theorem areCalm_childBlocks (o : Options) (ns : List StyleNode)
    (writable : ∀ m ∈ StyleNode.nodesBelow ns, m.IsWritable) (level : Nat) :
    AreCalm (childBlocks o level ns) := by
  match ns with
  | [] =>
    rw [childBlocks]
    exact areCalm_nil
  | n :: ns =>
    rw [StyleNode.nodesBelow] at writable
    have here := fun m hm => writable m (List.mem_append_left _ hm)
    have others := fun m hm => writable m (List.mem_append_right _ hm)
    intro b hb l hl
    rw [childBlocks] at hb
    rcases List.mem_cons.mp hb with rfl | hb
    · rcases List.mem_append.mp hl with hl | hl
      · exact isCalm_of_mem_lines o n here level l hl
      · exact List.mem_singleton.mp hl ▸ isCalm_blank
    · exact areCalm_childBlocks o ns others level b hb l hl

end

theorem opensNoComment_serialize (o : Options) {tree : StyleNode}
    (writable : ∀ n ∈ tree.nodes, n.IsWritable) :
    OpensNoComment (serialize o tree).toList := by
  have apart : textOf (lines o 0 tree) =
      ((lines o 0 tree).map fun l => l.text.toList).flatMap (· ++ ['\n']) := by
    rw [textOf, List.flatMap_map]
  rw [toList_serialize, apart]
  refine opensNoComment_lines fun text h => ?_
  obtain ⟨l, hl, rfl⟩ := List.mem_map.mp h
  exact isCalm_of_mem_lines o tree writable 0 l hl

end AuthoredStyle.Scss
