import AuthoredStyle.Proofs.Scss.Authored
import AuthoredStyle.Proofs.Scss.Comment
import AuthoredStyle.Proofs.Scss.Layout

/-!
# Written text, composed

The text of a tree is made of the texts of its children: the lines of the node's own come first,
then the text of each child, two spaces deeper and with an empty line behind it, and the brace at
last. There are no two empty lines together, and none behind a brace that opens a block. All this
is about lines, so no name and no value may hold a line break.
-/

namespace AuthoredStyle

namespace Scss

/-! ## Lines without breaks -/

/-- No line break stands in a property or a value. -/
def IsUnbroken (s : Styles) : Prop :=
  ∀ e ∈ s.entries, '\n' ∉ e.1.toList ∧ '\n' ∉ e.2.toList

instance (s : Styles) : Decidable (IsUnbroken s) :=
  inferInstanceAs (Decidable (∀ e ∈ s.entries, _))

end Scss

/-- No line break stands in a name or a value of the node. -/
structure StyleNode.IsUnbroken (n : StyleNode) : Prop where
  selector : '\n' ∉ n.selector.toList
  styles : Scss.IsUnbroken n.styles
  pseudo : ∀ e ∈ n.pseudo.entries, '\n' ∉ e.1.toList ∧ Scss.IsUnbroken e.2
  media : ∀ e ∈ n.media.entries, '\n' ∉ e.1.toList ∧ Scss.IsUnbroken e.2
  hover : Scss.IsUnbroken n.hover

instance (n : StyleNode) : Decidable n.IsUnbroken :=
  decidable_of_iff
    ('\n' ∉ n.selector.toList ∧ Scss.IsUnbroken n.styles ∧
      (∀ e ∈ n.pseudo.entries, '\n' ∉ e.1.toList ∧ Scss.IsUnbroken e.2) ∧
      (∀ e ∈ n.media.entries, '\n' ∉ e.1.toList ∧ Scss.IsUnbroken e.2) ∧ Scss.IsUnbroken n.hover)
    ⟨fun ⟨selector, styles, pseudo, media, hover⟩ => ⟨selector, styles, pseudo, media, hover⟩,
      fun h => ⟨h.selector, h.styles, h.pseudo, h.media, h.hover⟩⟩

namespace Scss

variable {o : Options} {level : Nat}

def Line.IsUnbroken (l : Line) : Prop := '\n' ∉ l.text.toList

theorem isUnbroken_opening (level : Nat) {head : String} (h : '\n' ∉ head.toList) :
    (Line.opening level head).IsUnbroken := by
  have margin := newline_not_mem_indent level
  simp [Line.IsUnbroken, Line.text, margin, h]

theorem isUnbroken_statement (level : Nat) {text : String} (h : '\n' ∉ text.toList) :
    (Line.statement level text).IsUnbroken := by
  have margin := newline_not_mem_indent level
  simp [Line.IsUnbroken, Line.text, margin, h]

theorem isUnbroken_closing (level : Nat) : (Line.closing level).IsUnbroken := by
  have margin := newline_not_mem_indent level
  simp [Line.IsUnbroken, Line.text, margin]

theorem newline_not_mem_declaration {property value : String} (hp : '\n' ∉ property.toList)
    (hv : '\n' ∉ value.toList) : '\n' ∉ (declaration o property value).toList := by
  cases call : calledWith? o property value with
  | some size =>
    have absent : '\n' ∉ size.toList := (of_calledWith? call).2.not_mem (by decide)
    have absent' : '\n' ∉ Sheet.fontSizeCall := by decide +kernel
    rw [declaration_call call, toList_call]
    simp [absent, absent']
  | none =>
    rw [toList_declaration_plain call]
    simp [hp, hv]

theorem isUnbroken_of_mem_declarations {s : Styles} (hs : IsUnbroken s) {l : Line}
    (h : l ∈ declarations o level s) : l.IsUnbroken := by
  obtain ⟨e, he, rfl⟩ := List.mem_map.mp h
  exact isUnbroken_statement level (newline_not_mem_declaration (hs e he).1 (hs e he).2)

theorem isUnbroken_of_mem_block {head : String} {s : Styles} (hh : '\n' ∉ head.toList)
    (hs : IsUnbroken s) {b : List Line} (h : b ∈ block o level head s) :
    ∀ l ∈ b, l.IsUnbroken := by
  rw [block] at h
  split at h
  · cases h
  · rw [List.mem_singleton.mp h]
    intro l hl
    rcases List.mem_append.mp hl with hl | hl
    · rcases List.mem_cons.mp hl with rfl | hl
      · exact isUnbroken_opening level hh
      · exact isUnbroken_of_mem_declarations hs hl
    · rw [List.mem_singleton.mp hl]
      exact isUnbroken_closing level

theorem isUnbroken_of_mem_sideBlocks {n : StyleNode} (hn : n.IsUnbroken) {b : List Line}
    (h : b ∈ sideBlocks o level n.pseudo n.media n.hover) : ∀ l ∈ b, l.IsUnbroken := by
  have named {lead name : String} (hl : '\n' ∉ lead.toList) (hn : '\n' ∉ name.toList) :
      '\n' ∉ (lead ++ name).toList := by simp [hl, hn]
  rcases mem_sideBlocks h with ⟨e, he, h⟩ | ⟨e, he, h⟩ | h
  · exact isUnbroken_of_mem_block (named (by decide) (hn.pseudo e he).1) (hn.pseudo e he).2 h
  · exact isUnbroken_of_mem_block (named (by decide) (hn.media e he).1) (hn.media e he).2 h
  · exact isUnbroken_of_mem_block (by decide) hn.hover h

theorem isUnbroken_of_mem_ownLines {n : StyleNode} (hn : n.IsUnbroken) {l : Line}
    (h : l ∈ ownLines o level n) : l.IsUnbroken := by
  rcases mem_foldl_behind h with rfl | h | ⟨b, hb, hl⟩
  · exact List.not_mem_nil
  · rcases List.mem_cons.mp h with rfl | h
    · exact isUnbroken_opening level hn.selector
    · exact isUnbroken_of_mem_declarations hn.styles h
  · exact isUnbroken_of_mem_sideBlocks hn hb l hl

theorem isUnbroken_of_mem_lines (o : Options) (n : StyleNode) :
    (∀ m ∈ n.nodes, m.IsUnbroken) → ∀ level, ∀ l ∈ lines o level n, l.IsUnbroken := by
  induction n using StyleNode.treeInduction with
  | node n ih =>
    intro unbroken level l h
    have here : n.IsUnbroken := unbroken n (by rw [StyleNode.nodes_eq]; exact List.mem_cons_self)
    rw [lines_own, List.mem_append] at h
    rcases h with h | h
    · rcases mem_foldl_behind h with rfl | h | ⟨b, hb, hl⟩
      · exact List.not_mem_nil
      · exact isUnbroken_of_mem_ownLines here h
      · obtain ⟨c, child, rfl⟩ := List.mem_map.mp hb
        rcases List.mem_append.mp hl with hl | hl
        · have below := fun m hm => unbroken m (StyleNode.mem_nodes_of_child child hm)
          exact ih c child below (level + 1) l hl
        · rw [List.mem_singleton.mp hl]
          exact List.not_mem_nil
    · rw [List.mem_singleton.mp h]
      exact isUnbroken_closing level

/-! ## The written text -/

/-- The text with each line that is not empty two spaces deeper. -/
def deeper (s : List Char) : List Char :=
  ['\n'].intercalate
    ((Text.fields (· = '\n') s).map fun l => if l.isEmpty then [] else ' ' :: ' ' :: l)

theorem text_deeper (l : Line) :
    l.deeper.text.toList = if l.text.toList.isEmpty then [] else ' ' :: ' ' :: l.text.toList := by
  cases l with
  | blank => rfl
  | opening | statement | closing => simp [Line.deeper, Line.text, toList_indent_succ]

theorem intercalate_snoc_nil (mark : Char) (fs : List (List Char)) :
    [mark].intercalate (fs ++ [[]]) = fs.flatMap (· ++ [mark]) := by
  induction fs with
  | nil => rfl
  | cons f fs ih =>
    obtain ⟨g, gs, shape⟩ := List.exists_cons_of_ne_nil
      (List.append_ne_nil_of_right_ne_nil fs (List.cons_ne_nil ([] : List Char) []))
    rw [List.cons_append, shape, List.intercalate_cons_cons, ← shape, ih, List.flatMap_cons]

theorem deeper_textOf {ls : List Line} (unbroken : ∀ l ∈ ls, l.IsUnbroken) :
    deeper (textOf ls) = textOf (ls.map Line.deeper) := by
  rw [deeper, fields_textOf unbroken, List.map_append, List.map_map]
  refine (intercalate_snoc_nil _ _).trans ?_
  rw [textOf, List.flatMap_map, List.flatMap_map]
  simp only [Function.comp_apply, text_deeper]

theorem textOf_closing : textOf [.closing 0] = ['\x7d', '\n'] := by
  decide

/-- Lines that are not blank end in a brace exactly if they open a block. -/
theorem exists_text_snoc {l : Line} (visible : l ≠ .blank) :
    ∃ front c, l.text.toList = front ++ [c] ∧ (c = '\x7b' ↔ l.isGap = true) := by
  cases l with
  | blank => exact absurd rfl visible
  | opening level head =>
    refine ⟨(Line.indent level).toList ++ head.toList ++ [' '], '\x7b', ?_, by simp [Line.isGap]⟩
    simp [Line.text]
  | statement level text =>
    refine ⟨(Line.indent level).toList ++ text.toList, ';', ?_, by simp [Line.isGap]⟩
    simp [Line.text]
  | closing level =>
    refine ⟨(Line.indent level).toList, '\x7d', ?_, by simp [Line.isGap]⟩
    simp [Line.text]

theorem suffix_textOf_iff {ls : List Line} (visible : EndsVisible ls) :
    ['\x7b', '\n'] <:+ textOf ls ↔ ls.getLast?.all Line.isGap = true := by
  obtain ⟨l, last, visible⟩ := visible
  obtain ⟨before, rfl⟩ := List.getLast?_eq_some_iff.mp last
  obtain ⟨front, c, text, brace⟩ := exists_text_snoc visible
  have whole : textOf (before ++ [l]) = (textOf before ++ front) ++ [c, '\n'] := by
    rw [textOf_append, textOf_cons, text]
    simp [textOf]
  rw [whole, List.getLast?_concat, Option.all_some, ← brace]
  constructor
  · rintro ⟨rest, same⟩
    have ends := (List.append_inj' same rfl).2
    exact (List.cons_eq_cons.mp ends).1.symm
  · rintro rfl
    exact List.suffix_append _ _

/-- An empty line stands behind one that is not empty and does not end in an opening brace. -/
def Apart (a b : List Char) : Prop := b = [] → a ≠ [] ∧ a.getLast? ≠ some '\x7b'

theorem Line.Follows.apart {a b : Line} (follows : a.Follows b) :
    Apart a.text.toList b.text.toList := by
  intro empty
  have blank : b = .blank := by
    by_contra visible
    obtain ⟨front, c, text, -⟩ := exists_text_snoc visible
    simp [text] at empty
  have text := follows blank
  have visible : a ≠ .blank := by
    rintro rfl
    cases text
  obtain ⟨front, c, ends, brace⟩ := exists_text_snoc visible
  rw [ends, List.getLast?_concat]
  refine ⟨by simp, fun same => ?_⟩
  rw [brace.mp (Option.some.inj same)] at text
  cases text

theorem isChain_fields_serialize (o : Options) {n : StyleNode}
    (unbroken : ∀ m ∈ n.nodes, m.IsUnbroken) :
    (Text.fields (· = '\n') (serialize o n).toList).IsChain Apart := by
  have chain : ((lines o 0 n).map fun l => l.text.toList).IsChain Apart :=
    (List.isChain_map _).mpr ((spaced_lines o n 0).chain.imp fun _ _ follows => follows.apart)
  rw [toList_serialize, fields_textOf (isUnbroken_of_mem_lines o n unbroken 0)]
  refine chain.append (.singleton []) ?_
  rw [List.getLast?_map, getLast?_lines]
  rintro a last b - -
  obtain rfl : ['\x7d'] = a := Option.some.inj last
  exact ⟨by decide, by decide⟩

/-- The text of a tree is that of its node alone, up to the brace at its end, then an empty line
unless a block has just been opened, the texts of the children, each two spaces deeper and with an
empty line behind it, and the brace. No two empty lines stand together, and none behind a line
that ends in an opening brace. -/
theorem serialize_composed (o : Options) (n : StyleNode)
    (unbroken : ∀ m ∈ n.nodes, m.IsUnbroken) :
    (∃ own,
      (serialize o { n with children := [] }).toList = own ++ ['\x7d', '\n'] ∧
      (serialize o n).toList =
        own ++ (if n.children.isEmpty ∨ ['\x7b', '\n'] <:+ own then [] else ['\n']) ++
          (n.children.flatMap fun c => deeper (serialize o c).toList ++ ['\n']) ++
          ['\x7d', '\n']) ∧
    (Text.fields (· = '\n') (serialize o n).toList).IsChain Apart := by
  refine ⟨⟨textOf (ownLines o 0 n), ?_, ?_⟩, isChain_fields_serialize o unbroken⟩
  · have alone : lines o 0 { n with children := [] } = ownLines o 0 n ++ [.closing 0] :=
      lines_own o 0 { n with children := [] }
    rw [toList_serialize, alone, textOf_append, textOf_closing]
  · have gap : (if n.children.isEmpty ∨ ['\x7b', '\n'] <:+ textOf (ownLines o 0 n) then []
        else ['\n']) =
        textOf (if n.children.isEmpty then [] else gapBehind (ownLines o 0 n)) := by
      have opens := suffix_textOf_iff (endsVisible_ownLines o 0 n)
      by_cases none : n.children.isEmpty = true
      · rw [if_pos (.inl none), if_pos none]
        rfl
      · rw [if_neg none, gapBehind]
        by_cases opened : ['\x7b', '\n'] <:+ textOf (ownLines o 0 n)
        · rw [if_pos (.inr opened), if_pos (opens.mp opened)]
          rfl
        · rw [if_neg (not_or.mpr ⟨none, opened⟩), if_neg (mt opens.mpr opened)]
          rfl
    have children : (n.children.flatMap fun c => deeper (serialize o c).toList ++ ['\n']) =
        textOf (n.children.flatMap fun c => (lines o 0 c).map Line.deeper ++ [.blank]) := by
      rw [textOf, List.flatMap_assoc]
      refine List.flatMap_congr fun c child => ?_
      have below := fun m hm => unbroken m (StyleNode.mem_nodes_of_child child hm)
      rw [toList_serialize, deeper_textOf (isUnbroken_of_mem_lines o c below 0), ← textOf,
        textOf_append]
      rfl
    rw [toList_serialize, lines_composed, textOf_append, textOf_append, textOf_append,
      textOf_closing, gap, children]

/-- A list with a box of its own, and in it an item with nothing and a link that is hovered. -/
def menu : StyleNode where
  selector := "ul"
  styles := .ofList [("color", "red")]
  pseudo := (∅ : GroupedStyles).insert "::before" (.ofList [("content", "\x7b")])
  children := [{ selector := "li" }, { selector := "a", hover := .ofList [("color", "blue")] }]

/-- The lines of the list's own. -/
def menuLines : List Char :=
  "ul \x7b\n  color: red;\n\n  &::before \x7b\n    content: \x7b;\n  \x7d\n".toList

theorem serialize_composed_of_menu :
    (∀ m ∈ menu.nodes, m.IsUnbroken) ∧
      (serialize {} { menu with children := [] }).toList = menuLines ++ ['\x7d', '\n'] ∧
      (serialize {} menu).toList =
        menuLines ++ ['\n'] ++
          (menu.children.flatMap fun c => deeper (serialize {} c).toList ++ ['\n']) ++
          ['\x7d', '\n'] ∧
      (Text.fields (· = '\n') (serialize {} menu).toList).IsChain Apart := by
  have unbroken : ∀ m ∈ menu.nodes, m.IsUnbroken := by decide +kernel
  have alone :
      (serialize {} { menu with children := [] }).toList = menuLines ++ ['\x7d', '\n'] := by
    decide +kernel
  obtain ⟨⟨own, alone', whole⟩, chain⟩ := serialize_composed {} menu unbroken
  obtain rfl : menuLines = own := List.append_cancel_right (alone.symm.trans alone')
  rw [if_neg (by decide +kernel)] at whole
  exact ⟨unbroken, alone, whole, chain⟩

end Scss

end AuthoredStyle
