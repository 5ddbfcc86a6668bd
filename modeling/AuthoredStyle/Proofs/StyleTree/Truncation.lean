import AuthoredStyle.Proofs.StyleTree.Shape

/-!
# Style trees of parts, and shallower ones

The subtree that is built below an element for one of its children is the tree built
for that child by itself, one generation further down, and a tree with a smaller depth
limit is a larger one cut off. So what a node says depends on its element alone, neither
on the root nor on the limit.
-/

namespace AuthoredStyle

namespace StyleNode

mutual

/-- The same tree, hung `k` generations further down. -/
def sunk (k : Nat) : StyleNode → StyleNode
  | ⟨selector, path, tag, id, classes, styles, pseudo, media, hover, children, depth⟩ =>
    ⟨selector, path, tag, id, classes, styles, pseudo, media, hover, sunkAll k children, depth + k⟩

def sunkAll (k : Nat) : List StyleNode → List StyleNode
  | [] => []
  | n :: ns => n.sunk k :: sunkAll k ns

end

mutual

/-- The tree without the nodes deeper than `d`, of those below its root. -/
def cutBelow (d : Nat) : StyleNode → StyleNode
  | ⟨selector, path, tag, id, classes, styles, pseudo, media, hover, children, depth⟩ =>
    ⟨selector, path, tag, id, classes, styles, pseudo, media, hover, cutAllBelow d children, depth⟩

def cutAllBelow (d : Nat) : List StyleNode → List StyleNode
  | [] => []
  | n :: ns => if n.depth ≤ d then n.cutBelow d :: cutAllBelow d ns else cutAllBelow d ns

end

theorem sunkAll_eq_map (k : Nat) (ns : List StyleNode) : sunkAll k ns = ns.map (sunk k) := by
  induction ns with
  | nil => rw [sunkAll, List.map_nil]
  | cons n ns ih => rw [sunkAll, List.map_cons, ih]

theorem sunk_eq (k : Nat) (n : StyleNode) :
    n.sunk k = { n with children := n.children.map (sunk k), depth := n.depth + k } := by
  cases n
  rw [sunk, sunkAll_eq_map]

theorem cutBelow_eq (d : Nat) (n : StyleNode) :
    n.cutBelow d = { n with children := cutAllBelow d n.children } := by
  cases n
  rw [cutBelow]

theorem cutAllBelow_shallow {d : Nat} {ns : List StyleNode} (shallow : ∀ n ∈ ns, n.depth ≤ d) :
    cutAllBelow d ns = ns.map (cutBelow d) := by
  induction ns with
  | nil => rw [cutAllBelow, List.map_nil]
  | cons n ns ih =>
    obtain ⟨here, later⟩ := List.forall_mem_cons.mp shallow
    rw [cutAllBelow, if_pos here, List.map_cons, ih later]

theorem cutAllBelow_deep {d : Nat} {ns : List StyleNode} (deep : ∀ n ∈ ns, d < n.depth) :
    cutAllBelow d ns = [] := by
  induction ns with
  | nil => rw [cutAllBelow]
  | cons n ns ih =>
    obtain ⟨here, later⟩ := List.forall_mem_cons.mp deep
    rw [cutAllBelow, if_neg (Nat.not_le_of_lt here), ih later]

end StyleNode

namespace Inspection

@[simp] theorem depth_treeFrom (v : Inspection) (room : Nat) (h : Page.Handle) (path : String)
    (depth : Nat) : (v.treeFrom room h path depth).depth = depth := by
  cases room <;> rfl

theorem sunk_node (v : Inspection) (h : Page.Handle) (path : String) (depth k : Nat) :
    (v.node h path depth).sunk k = v.node h path (depth + k) := by
  rw [StyleNode.sunk_eq]
  rfl

theorem sunk_treeFrom (v : Inspection) (room : Nat) (h : Page.Handle) (path : String)
    (depth k : Nat) : (v.treeFrom room h path depth).sunk k = v.treeFrom room h path (depth + k) := by
  induction room generalizing h path depth with
  | zero => exact v.sunk_node h path depth k
  | succ room ih =>
    rw [treeFrom, treeFrom, StyleNode.sunk_eq, List.map_map]
    have each : StyleNode.sunk k ∘ (fun c : Page.Handle × Nat =>
          v.treeFrom room c.1 (v.childPath path c.1 c.2) (depth + 1)) =
        fun c => v.treeFrom room c.1 (v.childPath path c.1 c.2) (depth + k + 1) := by
      funext c
      rw [Function.comp_apply, ih, Nat.add_right_comm]
    rw [each]
    rfl

/-- The induction is on the smaller room; the larger one ends no sooner. -/
theorem cutBelow_treeFrom (v : Inspection) {room larger : Nat} (le : room ≤ larger)
    (h : Page.Handle) (path : String) (depth : Nat) :
    (v.treeFrom larger h path depth).cutBelow (depth + room) = v.treeFrom room h path depth := by
  induction room generalizing larger h path depth with
  | zero =>
    rw [StyleNode.cutBelow_eq]
    cases larger with
    | zero => rfl
    | succ larger =>
      rw [treeFrom, StyleNode.cutAllBelow_deep]
      · rfl
      · intro n hn
        obtain ⟨c, -, rfl⟩ := List.mem_map.mp hn
        rw [depth_treeFrom]
        exact Nat.lt_succ_self depth
  | succ room ih =>
    obtain ⟨larger, rfl⟩ := Nat.exists_eq_succ_of_ne_zero (Nat.ne_zero_of_lt le)
    rw [StyleNode.cutBelow_eq, treeFrom, treeFrom, StyleNode.cutAllBelow_shallow, List.map_map]
    · have each : StyleNode.cutBelow (depth + (room + 1)) ∘ (fun c : Page.Handle × Nat =>
            v.treeFrom larger c.1 (v.childPath path c.1 c.2) (depth + 1)) =
          fun c => v.treeFrom room c.1 (v.childPath path c.1 c.2) (depth + 1) := by
        funext c
        have onward : depth + (room + 1) = depth + 1 + room := by omega
        rw [Function.comp_apply, onward, ih (Nat.le_of_succ_le_succ le)]
      rw [each]
    · intro n hn
      obtain ⟨c, -, rfl⟩ := List.mem_map.mp hn
      rw [depth_treeFrom]
      omega

theorem children_tree {v : Inspection} {t : Page.ElementSnapshot} (n : v.page.Numbers t)
    (maxDepth : Nat) (e : Page.Handle) :
    (v.tree (maxDepth + 1) e).children =
      (v.page.children e).map fun c => (v.tree maxDepth c).sunk 1 := by
  rw [tree, treeFrom_succ n rfl]
  refine List.map_congr_left fun c _ => ?_
  rw [tree, sunk_treeFrom]

/-- The children of a tree are the trees of the children with one generation less, hung
one generation further down; without a generation to go there are none; and a smaller
limit gives the tree of a larger one less what is deeper. -/
theorem tree_composes_and_truncates (s : Page.Snapshot) (rules : Sheet.RuleSet)
    (index : SourceMap.Index) (useSourceMap : Bool) :
    let v : Inspection := ⟨Page.ofSnapshot s, rules, index, useSourceMap⟩
    (∀ maxDepth e, (v.tree (maxDepth + 1) e).children =
        (v.page.children e).map fun c => (v.tree maxDepth c).sunk 1) ∧
      (∀ e, (v.tree 0 e).children = []) ∧
      ∀ d d' e, d ≤ d' → v.tree d e = (v.tree d' e).cutBelow d := by
  intro v
  refine ⟨children_tree (Page.numbers_ofSnapshot s), fun e => rfl, fun d d' e le => ?_⟩
  have cut := v.cutBelow_treeFrom le e (v.page.pathOf e) 0
  rw [Nat.zero_add] at cut
  exact cut.symm

/-! ## A list of two items, built whole and without its items -/

def listPage : Page.Snapshot where
  document := {
    tag := "nav"
    children := [{ tag := "ul", children := [{ tag := "li" }, { tag := "li" }] }] }
  stylesheets := []

theorem tree_composes_and_truncates_of_list :
    let v : Inspection := ⟨Page.ofSnapshot listPage, ∅, ∅, false⟩
    1 ≤ 2 ∧ v.tree 1 0 = (v.tree 2 0).cutBelow 1 ∧
      (v.tree 2 0).nodes.map (·.path) =
        ["/nav[1]", "/nav[1]/ul[1]", "/nav[1]/ul[1]/li[1]", "/nav[1]/ul[1]/li[2]"] ∧
      (v.tree 1 0).nodes.map (·.path) = ["/nav[1]", "/nav[1]/ul[1]"] := by
  intro v
  obtain ⟨-, -, truncates⟩ := tree_composes_and_truncates listPage ∅ ∅ false
  exact ⟨by decide, truncates 1 2 0 (by decide), by decide +kernel, by decide +kernel⟩

end Inspection

end AuthoredStyle
