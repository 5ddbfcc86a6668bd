import AuthoredStyle.Proofs.Scss.Lines

/-!
# The layout of written lines

What is written for a child stands in its parent line by line, one level deeper, with a blank
line behind it. Whether a blank line goes in front of a block is seen from the line before it,
and a child starts with a line of its own, so what is written inside it does not depend on where
it stands. No blank line follows another one, or a line that opens a block.
-/

namespace AuthoredStyle

/-! ## Trees -/

namespace StyleNode

/-- On a node with what is known of its children. -/
theorem treeInduction {P : StyleNode → Prop} (node : ∀ n, (∀ c ∈ n.children, P c) → P n)
    (n : StyleNode) : P n :=
  node n fun c _ => treeInduction node c
termination_by sizeOf n
decreasing_by
  rename_i child
  have smaller := List.sizeOf_lt_of_mem child
  cases n
  simp only [mk.sizeOf_spec] at smaller ⊢
  omega

theorem mem_nodesBelow_iff {m : StyleNode} {ns : List StyleNode} :
    m ∈ nodesBelow ns ↔ ∃ c ∈ ns, m ∈ c.nodes := by
  induction ns with
  | nil => simp [nodesBelow]
  | cons n ns ih => simp [nodesBelow, ih]

theorem mem_nodes_of_child {n c m : StyleNode} (child : c ∈ n.children) (below : m ∈ c.nodes) :
    m ∈ n.nodes := by
  rw [nodes_eq]
  exact List.mem_cons_of_mem n (mem_nodesBelow_iff.mpr ⟨c, child, below⟩)

end StyleNode

namespace Scss

variable {o : Options} {level : Nat}

theorem childBlocks_eq (o : Options) (level : Nat) (ns : List StyleNode) :
    childBlocks o level ns = ns.map fun n => lines o level n ++ [.blank] := by
  induction ns with
  | nil => rw [childBlocks, List.map_nil]
  | cons n ns ih => rw [childBlocks, ih, List.map_cons]

/-- What is written for a node in front of its children: its declarations and the blocks of its
own. -/
def ownLines (o : Options) (level : Nat) (n : StyleNode) : List Line :=
  (sideBlocks o (level + 1) n.pseudo n.media n.hover).foldl behind
    (.opening level n.selector :: declarations o (level + 1) n.styles)

theorem lines_own (o : Options) (level : Nat) (n : StyleNode) :
    lines o level n =
      (n.children.map fun c => lines o (level + 1) c ++ [.blank]).foldl behind
        (ownLines o level n) ++ [.closing level] := by
  rw [lines_eq, childBlocks_eq, List.foldl_append, ownLines]

/-! ## One level deeper -/

def Line.deeper : Line → Line
  | .blank => .blank
  | .opening level head => .opening (level + 1) head
  | .statement level text => .statement (level + 1) text
  | .closing level => .closing (level + 1)

theorem Line.isGap_deeper (l : Line) : l.deeper.isGap = l.isGap := by cases l <;> rfl

theorem behind_deeper (written block : List Line) :
    behind (written.map Line.deeper) (block.map Line.deeper) =
      (behind written block).map Line.deeper := by
  have gap : (written.map Line.deeper).getLast?.all Line.isGap =
      written.getLast?.all Line.isGap := by
    rw [List.getLast?_map, Option.all_map]
    exact congrArg (Option.all · _) (funext Line.isGap_deeper)
  rw [behind, behind, gap]
  split
  · rw [List.map_append]
  · rw [List.map_append]
    rfl

theorem foldl_behind_deeper (written : List Line) (blocks : List (List Line)) :
    (blocks.map (List.map Line.deeper)).foldl behind (written.map Line.deeper) =
      (blocks.foldl behind written).map Line.deeper := by
  induction blocks generalizing written with
  | nil => rfl
  | cons b bs ih => rw [List.map_cons, List.foldl_cons, behind_deeper, ih, List.foldl_cons]

theorem declarations_deeper (s : Styles) :
    declarations o (level + 1) s = (declarations o level s).map Line.deeper := by
  simp [declarations, Line.deeper]

theorem block_deeper (head : String) (s : Styles) :
    block o (level + 1) head s = (block o level head s).map (List.map Line.deeper) := by
  rw [block, block]
  split
  · rfl
  · simp [declarations_deeper, Line.deeper]

theorem sideBlocks_deeper (pseudo media : GroupedStyles) (hover : Styles) :
    sideBlocks o (level + 1) pseudo media hover =
      (sideBlocks o level pseudo media hover).map (List.map Line.deeper) := by
  rw [sideBlocks, sideBlocks]
  cases o.media <;> cases o.hover <;> simp [block_deeper, List.map_flatMap]

theorem ownLines_deeper (n : StyleNode) :
    ownLines o (level + 1) n = (ownLines o level n).map Line.deeper := by
  rw [ownLines, ownLines, sideBlocks_deeper, declarations_deeper, ← foldl_behind_deeper]
  rfl

theorem lines_deeper (o : Options) (n : StyleNode) :
    ∀ level, lines o (level + 1) n = (lines o level n).map Line.deeper := by
  induction n using StyleNode.treeInduction with
  | node n ih =>
    intro level
    have children : (n.children.map fun c => lines o (level + 1 + 1) c ++ [.blank]) =
        (n.children.map fun c => lines o (level + 1) c ++ [.blank]).map (List.map Line.deeper) := by
      rw [List.map_map]
      refine List.map_congr_left fun c child => ?_
      rw [ih c child, Function.comp_apply, List.map_append]
      rfl
    rw [lines_own, lines_own, children, ownLines_deeper, foldl_behind_deeper, List.map_append]
    rfl

/-! ## Blank lines -/

/-- A blank line behind neither a blank line nor one that opens a block. -/
def Line.Follows (a b : Line) : Prop := b = .blank → a.isGap = false

/-- Lines that start with something, with blank lines where they should be. -/
structure Spaced (ls : List Line) : Prop where
  chain : ls.IsChain Line.Follows
  head : ∃ l ∈ ls.head?, l ≠ .blank

theorem Spaced.snoc {ls : List Line} (spaced : Spaced ls) {l : Line}
    (fits : ∀ a ∈ ls.getLast?, a.Follows l) : Spaced (ls ++ [l]) where
  chain := spaced.chain.append (.singleton l) (by simpa using fits)
  head := by
    obtain ⟨a, first, visible⟩ := spaced.head
    exact ⟨a, by simp [Option.mem_def.mp first], visible⟩

/-- At least one line, and none of them blank. -/
def Dense (ls : List Line) : Prop := ls ≠ [] ∧ ∀ l ∈ ls, l ≠ .blank

theorem Dense.spaced {ls : List Line} (dense : Dense ls) : Spaced ls := by
  obtain ⟨some, visible⟩ := dense
  obtain ⟨l, ls, rfl⟩ := List.exists_cons_of_ne_nil some
  refine ⟨?_, l, rfl, visible l List.mem_cons_self⟩
  induction ls generalizing l with
  | nil => exact .singleton l
  | cons a ls ih =>
    have later : ∀ b ∈ a :: ls, b ≠ .blank := fun b hb => visible b (List.mem_cons_of_mem l hb)
    exact .cons_cons (fun blank => absurd blank (later a List.mem_cons_self))
      (ih a (List.cons_ne_nil a ls) later)

theorem Spaced.behind {written b : List Line} (start : Spaced written) (next : Spaced b) :
    Spaced (Scss.behind written b) := by
  obtain ⟨first, here, visible⟩ := next.head
  obtain ⟨rest, rfl⟩ : ∃ rest, b = first :: rest := by
    cases b with
    | nil => cases here
    | cons a rest => exact ⟨rest, by rw [Option.some.inj here]⟩
  obtain ⟨a, top, seen⟩ := start.head
  have head {more : List Line} : ∃ l ∈ (written ++ more).head?, l ≠ .blank :=
    ⟨a, by simp [Option.mem_def.mp top], seen⟩
  rw [Scss.behind]
  split
  · refine ⟨start.chain.append next.chain ?_, head⟩
    rintro x - y hy blank
    obtain rfl : first = y := Option.some.inj hy
    exact absurd blank visible
  · next text =>
    have inner : (.blank :: first :: rest : List Line).IsChain Line.Follows :=
      .cons_cons (fun blank => absurd blank visible) next.chain
    refine ⟨start.chain.append inner ?_, head⟩
    rintro x last y - -
    rw [Option.mem_def.mp last] at text
    simpa using text

theorem Spaced.foldl_behind {written : List Line} {bs : List (List Line)} (start : Spaced written)
    (blocks : ∀ b ∈ bs, Spaced b) : Spaced (bs.foldl Scss.behind written) := by
  induction bs generalizing written with
  | nil => exact start
  | cons b bs ih =>
    obtain ⟨here, later⟩ := List.forall_mem_cons.mp blocks
    exact ih (start.behind here) later

theorem ne_blank_of_mem_declarations {s : Styles} {l : Line} (h : l ∈ declarations o level s) :
    l ≠ .blank := by
  obtain ⟨e, -, rfl⟩ := List.mem_map.mp h
  exact nofun

theorem dense_of_mem_block {head : String} {s : Styles} {b : List Line}
    (h : b ∈ block o level head s) : Dense b := by
  rw [block] at h
  split at h
  · cases h
  · rw [List.mem_singleton.mp h]
    refine ⟨List.cons_ne_nil _ _, fun a ha => ?_⟩
    rcases List.mem_cons.mp ha with rfl | ha
    · exact nofun
    · rcases List.mem_append.mp ha with ha | ha
      · exact ne_blank_of_mem_declarations ha
      · rw [List.mem_singleton.mp ha]
        exact nofun

/-- The blocks of a node's own, each with what it is written for. -/
theorem mem_sideBlocks {pseudo media : GroupedStyles} {hover : Styles} {b : List Line}
    (h : b ∈ sideBlocks o level pseudo media hover) :
    (∃ e ∈ pseudo.entries, b ∈ block o level ("&" ++ e.1) e.2) ∨
      (∃ e ∈ media.entries, b ∈ block o level ("@include " ++ e.1) e.2) ∨
      b ∈ block o level "@include hover()" hover := by
  rw [sideBlocks, List.mem_append, List.mem_append] at h
  rcases h with (h | h) | h
  · exact .inl (List.mem_flatMap.mp h)
  · split at h
    · exact .inr (.inl (List.mem_flatMap.mp h))
    · cases h
  · split at h
    · exact .inr (.inr h)
    · cases h

theorem dense_of_mem_sideBlocks {n : StyleNode} {b : List Line}
    (h : b ∈ sideBlocks o level n.pseudo n.media n.hover) : Dense b := by
  rcases mem_sideBlocks h with ⟨e, -, h⟩ | ⟨e, -, h⟩ | h
  all_goals exact dense_of_mem_block h

theorem dense_opened (o : Options) (level : Nat) (n : StyleNode) :
    Dense (.opening level n.selector :: declarations o (level + 1) n.styles) := by
  refine ⟨List.cons_ne_nil _ _, fun a ha => ?_⟩
  rcases List.mem_cons.mp ha with rfl | ha
  · exact nofun
  · exact ne_blank_of_mem_declarations ha

theorem spaced_ownLines (o : Options) (level : Nat) (n : StyleNode) :
    Spaced (ownLines o level n) :=
  (dense_opened o level n).spaced.foldl_behind fun _ hb => (dense_of_mem_sideBlocks hb).spaced

theorem getLast?_lines (o : Options) (level : Nat) (n : StyleNode) :
    (lines o level n).getLast? = some (.closing level) := by
  rw [lines_own, List.getLast?_concat]

theorem spaced_lines (o : Options) (n : StyleNode) : ∀ level, Spaced (lines o level n) := by
  induction n using StyleNode.treeInduction with
  | node n ih =>
    intro level
    rw [lines_own]
    refine Spaced.snoc ?_ (fun a _ => nofun)
    refine (spaced_ownLines o level n).foldl_behind fun b hb => ?_
    obtain ⟨c, child, rfl⟩ := List.mem_map.mp hb
    refine (ih c child (level + 1)).snoc fun a last => ?_
    rw [getLast?_lines] at last
    obtain rfl : .closing (level + 1) = a := Option.some.inj last
    exact fun _ => rfl

/-- A blank line ends each block, so no other one is put between them. -/
theorem foldl_behind_gapped {written : List Line} {bs : List (List Line)}
    (gap : written.getLast?.all Line.isGap = true) (ends : ∀ b ∈ bs, b.getLast? = some .blank) :
    bs.foldl behind written = written ++ bs.flatten := by
  induction bs generalizing written with
  | nil => simp
  | cons b bs ih =>
    obtain ⟨here, later⟩ := List.forall_mem_cons.mp ends
    have last : (written ++ b).getLast?.all Line.isGap = true := by
      rw [List.getLast?_append, here]
      rfl
    rw [List.foldl_cons, behind, if_pos gap, ih last later, List.flatten_cons, List.append_assoc]

/-- The blank line between what is written and a first block. -/
def gapBehind (written : List Line) : List Line :=
  if written.getLast?.all Line.isGap then [] else [.blank]

theorem behind_eq (written b : List Line) :
    behind written b = written ++ gapBehind written ++ b := by
  rw [behind, gapBehind]
  split <;> simp

theorem isGap_getLast?_gapBehind (written : List Line) :
    (written ++ gapBehind written).getLast?.all Line.isGap = true := by
  rw [gapBehind]
  split
  · next gap => rwa [List.append_nil]
  · rw [List.getLast?_concat]
    rfl

theorem foldl_behind_eq {written : List Line} {bs : List (List Line)}
    (ends : ∀ b ∈ bs, b.getLast? = some .blank) :
    bs.foldl behind written =
      written ++ (if bs.isEmpty then [] else gapBehind written) ++ bs.flatten := by
  cases bs with
  | nil => simp
  | cons b bs =>
    have gap := isGap_getLast?_gapBehind written
    have whole := foldl_behind_gapped gap ends
    rw [List.foldl_cons, behind, if_pos gap] at whole
    rw [List.foldl_cons, behind_eq, whole]
    rfl

theorem lines_composed (o : Options) (n : StyleNode) :
    lines o 0 n =
      ownLines o 0 n ++ (if n.children.isEmpty then [] else gapBehind (ownLines o 0 n)) ++
        (n.children.flatMap fun c => (lines o 0 c).map Line.deeper ++ [.blank]) ++
        [.closing 0] := by
  have ends : ∀ b ∈ n.children.map fun c => lines o 1 c ++ [.blank], b.getLast? = some .blank := by
    intro b hb
    obtain ⟨c, -, rfl⟩ := List.mem_map.mp hb
    exact List.getLast?_concat ..
  have moved : (n.children.map fun c => lines o 1 c ++ [.blank]).flatten =
      n.children.flatMap fun c => (lines o 0 c).map Line.deeper ++ [.blank] := by
    rw [List.flatMap_def]
    refine congrArg List.flatten (List.map_congr_left fun c _ => ?_)
    rw [lines_deeper]
  rw [lines_own, foldl_behind_eq ends, moved, List.isEmpty_map]

/-! ## Where a node's own lines end -/

/-- Something is written, and not a blank line at last. -/
def EndsVisible (ls : List Line) : Prop := ∃ l ∈ ls.getLast?, l ≠ .blank

theorem EndsVisible.append (a : List Line) {b : List Line} (h : EndsVisible b) :
    EndsVisible (a ++ b) := by
  obtain ⟨l, last, visible⟩ := h
  exact ⟨l, by simp [Option.mem_def.mp last], visible⟩

theorem Dense.endsVisible {ls : List Line} (dense : Dense ls) : EndsVisible ls := by
  have last := List.getLast?_eq_some_getLast dense.1
  exact ⟨_, last, dense.2 _ (List.getLast_mem dense.1)⟩

theorem EndsVisible.foldl_behind {written : List Line} {bs : List (List Line)}
    (start : EndsVisible written) (blocks : ∀ b ∈ bs, EndsVisible b) :
    EndsVisible (bs.foldl Scss.behind written) := by
  induction bs generalizing written with
  | nil => exact start
  | cons b bs ih =>
    obtain ⟨here, later⟩ := List.forall_mem_cons.mp blocks
    rw [List.foldl_cons, behind_eq]
    exact ih (here.append _) later

theorem endsVisible_ownLines (o : Options) (level : Nat) (n : StyleNode) :
    EndsVisible (ownLines o level n) :=
  (dense_opened o level n).endsVisible.foldl_behind fun _ hb =>
    (dense_of_mem_sideBlocks hb).endsVisible

end Scss

end AuthoredStyle
