import AuthoredStyle.Proofs.Scss.Comment

/-!
# SCSS of a style tree, read as a stylesheet

Reading what is written for a tree of writable nodes gives, in document order, a
plain rule for each node with styles and a rule for each of its boxes with styles,
under the path of short selectors from the root, as long as that path names a class
or an id. A box's rule does not depend on whether its node has styles of its own.

The tree itself does not come back: paths without a class or an id leave no rule,
and breakpoints and hovering leave none at all.
-/

namespace AuthoredStyle

open Sheet

namespace StyleNode

mutual

/-- Each node in document order, with the selectors from the root to it. -/
def outline (above : List String) : StyleNode → List (List String × StyleNode)
  | ⟨selector, path, tag, id, classes, styles, pseudo, media, hover, children, depth⟩ =>
    (above ++ [selector],
      ⟨selector, path, tag, id, classes, styles, pseudo, media, hover, children, depth⟩) ::
      outlineBelow (above ++ [selector]) children

def outlineBelow (above : List String) : List StyleNode → List (List String × StyleNode)
  | [] => []
  | n :: ns => n.outline above ++ outlineBelow above ns

end

theorem outline_eq (above : List String) (n : StyleNode) :
    n.outline above =
      (above ++ [n.selector], n) :: outlineBelow (above ++ [n.selector]) n.children := by
  cases n
  rw [outline]

/-- The rule that comes back for the node's own styles. -/
def plainRule? (file path : String) (n : StyleNode) : Option PlainRule :=
  if n.styles.isEmpty ∨ ¬ NamesClassOrId path.toList then none
  else some ⟨path, n.styles.keys, file⟩

end StyleNode

namespace Scss

variable {file : String} {o : Options}

def wordsOf (selectors : List String) : List (List Char) := selectors.map String.toList

/-- What comes back for the nodes of an outline. -/
def rulesAlong (o : Options) (file : String) (outline : List (List String × StyleNode)) : RuleSet :=
  { plain := outline.filterMap fun e => e.2.plainRule? file (" ".intercalate e.1),
    pseudo := outline.flatMap fun e => boxRules o (" ".intercalate e.1) e.2.pseudo }

theorem rulesAlong_append (a b : List (List String × StyleNode)) :
    rulesAlong o file (a ++ b) = rulesAlong o file a ++ rulesAlong o file b := by
  show rulesAlong o file (a ++ b) = RuleSet.append _ _
  simp [rulesAlong, RuleSet.append]

theorem rulesAlong_cons (e : List String × StyleNode) (es : List (List String × StyleNode)) :
    rulesAlong o file (e :: es) =
      { plain := (e.2.plainRule? file (" ".intercalate e.1)).toList } ++
        ({ pseudo := boxRules o (" ".intercalate e.1) e.2.pseudo } ++ rulesAlong o file es) := by
  show rulesAlong o file (e :: es) = RuleSet.append _ (RuleSet.append _ _)
  cases own : e.2.plainRule? file (" ".intercalate e.1) <;>
    simp [rulesAlong, RuleSet.append, own]

section Nodes

variable {above : List String}

theorem path_eq (selectors : List String) :
    String.ofList (spaced (wordsOf selectors)) = " ".intercalate selectors := by
  apply String.toList_inj.mp
  rw [String.toList_ofList, String.toList_intercalate]
  rfl

theorem wordsOf_snoc (selector : String) :
    wordsOf (above ++ [selector]) = wordsOf above ++ [selector.toList] := by
  simp [wordsOf]

theorem isPathWord_snoc {n : StyleNode} (hw : ∀ w ∈ wordsOf above, IsPathWord w)
    (writable : n.IsWritable) : ∀ w ∈ wordsOf (above ++ [n.selector]), IsPathWord w := by
  intro w h
  rw [wordsOf_snoc] at h
  rcases List.mem_append.mp h with h | h
  · exact hw w h
  · exact List.mem_singleton.mp h ▸ writable.selector.isPathWord

/-- Inside its parents' blocks a node's selector stands for its whole path. -/
theorem nest_selector {n : StyleNode} (writable : n.IsWritable) :
    nest (under (wordsOf above)) (selectorList n.selector.toList) =
      under (wordsOf (above ++ [n.selector])) := by
  have word := writable.selector.isPathWord
  have comma : ',' ∉ n.selector.toList := word.not_mem (by decide)
  have ampersand : '&' ∉ n.selector.toList := word.not_mem (by decide)
  rw [selectorList_solid word.solid comma, nest_under _ ampersand, wordsOf_snoc]

theorem ownRules_node {n : StyleNode} (writable : n.IsWritable)
    (hw : ∀ w ∈ wordsOf above, IsPathWord w) :
    rulesSaid (under (wordsOf (above ++ [n.selector]))) (said o n.styles) file =
      { plain := (n.plainRule? file (" ".intercalate (above ++ [n.selector]))).toList } := by
  have named : wordsOf (above ++ [n.selector]) ≠ [] := by simp [wordsOf]
  rw [rulesSaid_path named (isPathWord_snoc hw writable) writable.styles, StyleNode.plainRule?,
    ← path_eq, String.toList_ofList]
  split <;> rfl

/-- The node is written as one block. Its inside reads as the node's declarations
and, with them, as all rules of the node and those below it. -/
def NodeReads (o : Options) (file : String) (above : List String) (level : Nat) (n : StyleNode) :
    Prop :=
  ∃ inner rules,
    lines o level n = .opening level n.selector :: (inner ++ [.closing level]) ∧
    Reads file (under (wordsOf (above ++ [n.selector]))) (textOf inner) (said o n.styles) rules ∧
    rulesSaid (under (wordsOf (above ++ [n.selector]))) (said o n.styles) file ++ rules =
      rulesAlong o file (n.outline above)

theorem nodeReads_of_children {n : StyleNode} {level : Nat} (writable : n.IsWritable)
    (hw : ∀ w ∈ wordsOf above, IsPathWord w)
    (below : BlocksRead file (under (wordsOf (above ++ [n.selector])))
      (childBlocks o (level + 1) n.children)
      (rulesAlong o file (StyleNode.outlineBelow (above ++ [n.selector]) n.children))) :
    NodeReads o file above level n := by
  have named : wordsOf (above ++ [n.selector]) ≠ [] := by simp [wordsOf]
  have side : BlocksRead file (under (wordsOf (above ++ [n.selector])))
      (sideBlocks o (level + 1) n.pseudo n.media n.hover) _ :=
    blocksRead_side writable named (isPathWord_snoc hw writable) (level + 1)
  have start : Reads file (under (wordsOf (above ++ [n.selector])))
      (textOf (declarations o (level + 1) n.styles)) (said o n.styles) ∅ :=
    reads_declarations writable.styles (level + 1)
  obtain ⟨inner, written, reads⟩ := (side.append below).behind start
  refine ⟨inner, _, ?_, reads, ?_⟩
  · rw [lines_eq, written]
    rfl
  · rw [ownRules_node writable hw, StyleNode.outline_eq, rulesAlong_cons, path_eq]
    rfl

theorem isAtRule_selector {n : StyleNode} (writable : n.IsWritable) :
    isAtRule n.selector.toList = false := by
  have word := writable.selector.isPathWord
  have other : '@' ∉ n.selector.toList := word.not_mem (by decide)
  obtain ⟨c, rest, starts, -⟩ := word.solid.exists_cons
  rw [starts] at other ⊢
  simpa [isAtRule, eq_comm] using (List.ne_and_not_mem_of_not_mem_cons other).1

/-- A child's block with the blank line behind it. -/
theorem NodeReads.reads_child {n : StyleNode} {level : Nat} (h : NodeReads o file above level n)
    (writable : n.IsWritable) :
    Reads file (under (wordsOf above)) (textOf (lines o level n ++ [.blank])) []
      (rulesAlong o file (n.outline above)) := by
  obtain ⟨inner, rules, written, reads, gives⟩ := h
  have word := writable.selector.isPathWord
  rw [← nest_selector writable] at reads gives
  have block := reads_opened level word.passesOver (Text.trim_solid word.solid)
    (isAtRule_selector writable) reads
  rw [gives, ← written] at block
  have whole := block.append reads_blankLine
  rwa [RuleSet.append_empty, List.append_nil, ← textOf_append] at whole

end Nodes

-- On the tree and its lists of children at once: the blocks of the children are
-- what a node's own block still needs.
mutual

theorem nodeReads (o : Options) (file : String) (n : StyleNode) (above : List String)
    (writable : ∀ m ∈ n.nodes, m.IsWritable) (hw : ∀ w ∈ wordsOf above, IsPathWord w)
    (level : Nat) : NodeReads o file above level n := by
  match n with
  | ⟨selector, path, tag, id, classes, styles, pseudo, media, hover, children, depth⟩ =>
    rw [StyleNode.nodes_eq] at writable
    have own := writable _ List.mem_cons_self
    have below := fun m hm => writable m (List.mem_cons_of_mem _ hm)
    exact nodeReads_of_children own hw
      (blocksRead_childBlocks o file children _ below (isPathWord_snoc hw own) (level + 1))

theorem blocksRead_childBlocks (o : Options) (file : String) (ns : List StyleNode)
    (above : List String) (writable : ∀ m ∈ StyleNode.nodesBelow ns, m.IsWritable)
    (hw : ∀ w ∈ wordsOf above, IsPathWord w) (level : Nat) :
    BlocksRead file (under (wordsOf above)) (childBlocks o level ns)
      (rulesAlong o file (StyleNode.outlineBelow above ns)) := by
  match ns with
  | [] =>
    rw [childBlocks, StyleNode.outlineBelow]
    exact .nil
  | n :: ns =>
    rw [StyleNode.nodesBelow] at writable
    have here := fun m hm => writable m (List.mem_append_left _ hm)
    have others := fun m hm => writable m (List.mem_append_right _ hm)
    have own : n.IsWritable := here n (by rw [StyleNode.nodes_eq]; exact List.mem_cons_self)
    have first := (nodeReads o file n above here hw level).reads_child own
    have later := blocksRead_childBlocks o file ns above others hw level
    rw [childBlocks, StyleNode.outlineBelow, rulesAlong_append]
    exact .cons first later

end

/-- A written tree reads as the rules along its outline. -/
theorem read_serialize (o : Options) (file : String) {tree : StyleNode}
    (writable : ∀ n ∈ tree.nodes, n.IsWritable) :
    read (serialize o tree) file = rulesAlong o file (tree.outline []) := by
  have none : ∀ w ∈ wordsOf [], IsPathWord w := fun w hw => absurd hw List.not_mem_nil
  have own : tree.IsWritable := writable tree (by rw [StyleNode.nodes_eq]; exact List.mem_cons_self)
  have word := own.selector.isPathWord
  obtain ⟨inner, rules, written, reads, gives⟩ := nodeReads o file tree [] writable none 0
  have lead := trim_lead 0 (Text.trim_solid word.solid)
  have selectors : under (wordsOf ([] ++ [tree.selector])) = selectorList tree.selector.toList := by
    rw [← nest_selector own]
    rfl
  rw [selectors, ← lead] at reads gives
  have style := isAtRule_selector own
  rw [← lead] at style
  have whole : (serialize o tree).toList = _ :=
    (toList_serialize o tree).trans ((congrArg textOf written).trans (textOf_opened 0 _ inner))
  rw [← gives]
  exact read_block (passesOver_lead 0 word.passesOver) style (reads_inner 0 reads) blank_newline
    whole (opensNoComment_serialize o writable)

/-- Whatever tree of writable nodes is written, with whatever options, it reads as
one rule for each node with styles and one for each of its boxes with styles,
`::after` in front of `::before`, and as nothing else. The properties are those that
were written, and the size in a mixin call is read as pixels. -/
theorem serialize_reads_back (o : Options) (file : String) (tree : StyleNode)
    (writable : ∀ n ∈ tree.nodes, n.IsWritable) :
    read (serialize o tree) file =
        { plain := (tree.outline []).filterMap fun e =>
            e.2.plainRule? file (" ".intercalate e.1),
          pseudo := (tree.outline []).flatMap fun e =>
            boxRules o (" ".intercalate e.1) e.2.pseudo,
          media := [],
          hover := [] } ∧
      (∀ s, (readBackAll o s).keys = s.keys) ∧
      ∀ value size, fontSizeArgument? value = some size →
        declaration? ("@include font-size(" ++ size ++ ")").toList =
          some ("font-size", size ++ "px") := by
  refine ⟨read_serialize o file writable, fun s => keys_readBackAll, fun value size h => ?_⟩
  exact declaration?_mixin (isPathWord_of_fontSizeArgument? h)

/-- A coloured card with a paragraph that has nothing but a box in front of it. -/
def card : StyleNode where
  selector := ".card"
  styles := (∅ : Styles).insert "color" "red"
  children := [{
    selector := "p"
    pseudo := (∅ : GroupedStyles).insert "::before" ((∅ : Styles).insert "content" "none") }]

theorem isWritable_empty : IsWritable ∅ := fun _ h => absurd h List.not_mem_nil

theorem isWritable_single {property value : String} (known : Property.isImportant property = true)
    (neutral : IsNeutral value.toList) : IsWritable ((∅ : Styles).insert property value) := by
  intro e h
  rw [List.mem_singleton.mp h]
  exact ⟨known, neutral⟩

theorem card_writable : ∀ n ∈ card.nodes, n.IsWritable := by
  have red : IsNeutral "red".toList :=
    ⟨by decide, opensNoComment_of_not_mem (by decide), passesOver_of_all (by decide)⟩
  have nothing : IsNeutral "none".toList :=
    ⟨by decide, opensNoComment_of_not_mem (by decide), passesOver_of_all (by decide)⟩
  have card' : IsName ['c', 'a', 'r', 'd'] := by decide
  have p : IsName ['p'] := by decide
  have content : IsWritable ((∅ : Styles).insert "content" "none") :=
    isWritable_single (by decide +kernel) nothing
  intro n h
  simp only [card, StyleNode.nodes, StyleNode.nodesBelow, List.append_nil, List.mem_cons,
    List.not_mem_nil, or_false] at h
  rcases h with rfl | rfl
  · refine ⟨.ofClass card', isWritable_single (by decide +kernel) red, ?_, ?_, ?_, ?_,
      isWritable_empty⟩ <;> exact fun e h => absurd h List.not_mem_nil
  · refine ⟨.tag p, isWritable_empty, ?_, ?_, ?_, ?_, isWritable_empty⟩
    · exact fun e h => ⟨.before, by rw [List.mem_singleton.mp h]; rfl⟩
    · exact fun e h => by rw [List.mem_singleton.mp h]; exact content
    · exact fun e h => absurd h List.not_mem_nil
    · exact fun e h => absurd h List.not_mem_nil

theorem serialize_card_reads_back :
    (∀ n ∈ card.nodes, n.IsWritable) ∧
      read (serialize {} card) "" =
        { plain := [⟨".card", .ofList ["color"], ""⟩],
          pseudo := [⟨".card p", .before, .ofList [("content", "none")]⟩] } := by
  refine ⟨card_writable, (serialize_reads_back {} "" card card_writable).1.trans ?_⟩
  decide +kernel

/-- The paragraph's box leaves a rule though the paragraph has no styles. -/
theorem box_of_unstyled_node_comes_back :
    ¬ ∀ (o : Options) (tree : StyleNode), (∀ n ∈ tree.nodes, n.IsWritable) →
      (read (serialize o tree) "").pseudo =
        (tree.outline []).flatMap fun e =>
          if e.2.styles.isEmpty then [] else boxRules o (" ".intercalate e.1) e.2.pseudo := by
  intro claim
  have lost := claim {} card card_writable
  rw [read_serialize {} "" card_writable] at lost
  revert lost
  decide +kernel

end Scss

end AuthoredStyle
