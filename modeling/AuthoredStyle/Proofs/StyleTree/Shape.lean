import AuthoredStyle.StyleTree.Build
import AuthoredStyle.Proofs.Page.Generations
import AuthoredStyle.Proofs.Page.Path

/-!
# The shape of a style tree

Built for an element, a style tree has one node for each element at most so many
generations below as asked for, in document order, and every node knows how far
below the root its element is and what its path is. The builder counts ordinals
while it goes through the children, a path counts the siblings in front of each
ancestor; both come to the same place.

Nothing is said here about the styles of a node.
-/

namespace AuthoredStyle

namespace Inspection

/-- The node is the element's own, and its children stand in document order for
those of the element, down to the depth limit. -/
inductive Portrays (v : Inspection) (maxDepth : Nat) : Page.Handle → StyleNode → Prop where
  | mk {h : Page.Handle} {path : String} {depth : Nat} {below : List StyleNode} :
      List.Forall₂ (Portrays v maxDepth) (if depth < maxDepth then v.page.children h else []) below →
        Portrays v maxDepth h { v.node h path depth with children := below }

/-- The running count of a tag is its count among the siblings so far. -/
theorem ordinals_eq (v : Inspection) {met : Dict Nat} (before : List Page.Handle)
    {siblings : List Page.Handle} (distinct : (before ++ siblings).Nodup)
    (counted : ∀ tag, (met.get? tag).getD 0 = before.countP (v.page.tag · = tag)) :
    v.ordinals met siblings =
      siblings.map fun c => (c, v.page.placeAmong (before ++ siblings) c) := by
  induction siblings generalizing met before with
  | nil => rfl
  | cons c siblings ih =>
    have fresh : ∀ b ∈ before, b ≠ c := by
      rintro b hb rfl
      exact (List.nodup_append.mp distinct).2.2 b hb b List.mem_cons_self rfl
    have place : v.page.placeAmong (before ++ c :: siblings) c =
        (met.get? (v.page.tag c)).getD 0 + 1 := by
      have front : (before ++ c :: siblings).takeWhile (· ≠ c) = before := by
        rw [List.takeWhile_append_of_pos (by simpa using fresh)]
        simp
      rw [Page.placeAmong, front, counted]
    have onward : before ++ c :: siblings = (before ++ [c]) ++ siblings := by simp
    rw [ordinals, List.map_cons, place, onward, ih (before ++ [c])]
    · rwa [← onward]
    · intro tag
      rw [Dict.get?_insert, List.countP_append, List.countP_singleton, ← counted]
      by_cases same : tag = v.page.tag c
      · simp [same, counted]
      · simp [same, Ne.symm same, counted]

theorem ordinals_children (v : Inspection) {t : Page.ElementSnapshot} (n : v.page.Numbers t)
    (h : Page.Handle) :
    v.ordinals ∅ (v.page.children h) =
      (v.page.children h).map fun c => (c, v.page.placeAmong (v.page.children h) c) :=
  ordinals_eq v [] (by simpa using n.children_nodup h) (by simp)

theorem treeFrom_succ {v : Inspection} {t : Page.ElementSnapshot} (n : v.page.Numbers t)
    {room : Nat} {h : Page.Handle} {path : String} {depth : Nat} (own : path = v.page.pathOf h) :
    v.treeFrom (room + 1) h path depth =
      { v.node h path depth with
        children := (v.page.children h).map fun c =>
          v.treeFrom room c (v.page.pathOf c) (depth + 1) } := by
  rw [treeFrom, v.ordinals_children n, List.map_map]
  congr 1
  refine List.map_congr_left fun c hc => ?_
  rw [Function.comp_apply, Page.pathOf_child (n.mem_children_iff.mp hc), own]
  rfl

theorem portrays_treeFrom {v : Inspection} {t : Page.ElementSnapshot} (n : v.page.Numbers t)
    {maxDepth room : Nat} {h : Page.Handle} {path : String} {depth : Nat}
    (own : path = v.page.pathOf h) (span : depth + room = maxDepth) :
    v.Portrays maxDepth h (v.treeFrom room h path depth) := by
  induction room generalizing h path depth with
  | zero =>
    refine (.mk ?_ : v.Portrays maxDepth h { v.node h path depth with children := [] })
    rw [if_neg (by omega)]
    exact .nil
  | succ room ih =>
    rw [treeFrom_succ n own]
    refine .mk ?_
    rw [if_pos (by omega), List.forall₂_map_right_iff]
    exact List.forall₂_same.mpr fun c _ => ih rfl (by omega)

end Inspection

namespace StyleNode

theorem forall₂_nodesBelow {R : Page.Handle → StyleNode → Prop}
    {walk : Page.Handle → List Page.Handle} {hs : List Page.Handle} {ms : List StyleNode}
    (each : List.Forall₂ (fun h m => List.Forall₂ R (walk h) m.nodes) hs ms) :
    List.Forall₂ R (hs.flatMap walk) (nodesBelow ms) := by
  induction each with
  | nil => exact .nil
  | cons first _ ih =>
    rw [List.flatMap_cons, nodesBelow]
    exact List.rel_append first ih

end StyleNode

namespace Inspection

/-- The node portrays an element and tells its generation below `r` and its path. -/
structure Represents (v : Inspection) (maxDepth : Nat) (r h : Page.Handle) (m : StyleNode) : Prop where
  depth_iff : ∀ g, v.page.Below r g h ↔ g = m.depth
  path_eq : m.path = v.page.pathOf h
  portrays : v.Portrays maxDepth h m

theorem represents_treeFrom {v : Inspection} {t : Page.ElementSnapshot} (n : v.page.Numbers t)
    {maxDepth room : Nat} {r h : Page.Handle} {path : String} {depth : Nat}
    (own : path = v.page.pathOf h) (span : depth + room = maxDepth)
    (below : v.page.Below r depth h) :
    v.Represents maxDepth r h (v.treeFrom room h path depth) where
  depth_iff := by
    have same : (v.treeFrom room h path depth).depth = depth := by cases room <;> rfl
    intro g
    rw [same]
    exact ⟨fun other => other.unique below, fun e => e ▸ below⟩
  path_eq := by
    rw [← own]
    cases room <;> rfl
  portrays := portrays_treeFrom n own span

theorem nodes_treeFrom {v : Inspection} {t : Page.ElementSnapshot} (n : v.page.Numbers t)
    {maxDepth room : Nat} {r h : Page.Handle} {path : String} {depth : Nat}
    (own : path = v.page.pathOf h) (span : depth + room = maxDepth)
    (below : v.page.Below r depth h) :
    List.Forall₂ (v.Represents maxDepth r) (v.page.within room h)
      (v.treeFrom room h path depth).nodes := by
  induction room generalizing h path depth with
  | zero => exact .cons (represents_treeFrom n own span below) .nil
  | succ room ih =>
    rw [StyleNode.nodes_eq, Page.within]
    refine .cons (represents_treeFrom n own span below) (StyleNode.forall₂_nodesBelow ?_)
    rw [treeFrom_succ n own, List.forall₂_map_right_iff]
    refine List.forall₂_same.mpr fun c hc => ?_
    exact ih rfl (by omega) (below.child (n.mem_children_iff.mp hc))

theorem nodes_tree {v : Inspection} {t : Page.ElementSnapshot} (n : v.page.Numbers t)
    (maxDepth : Nat) (r : Page.Handle) :
    List.Forall₂ (v.Represents maxDepth r) (v.page.within maxDepth r) (v.tree maxDepth r).nodes :=
  nodes_treeFrom n rfl (Nat.zero_add _) .self

/-- The nodes of a tree stand one for one for the elements at most `maxDepth`
generations below its root, in document order. -/
theorem tree_represents_elements (s : Page.Snapshot) (rules : Sheet.RuleSet)
    (index : SourceMap.Index) (o : BuildOptions) (r : Page.Handle) :
    let v : Inspection := ⟨Page.ofSnapshot s, rules, index, o.useSourceMap⟩
    ∃ elements : List Page.Handle, elements.Pairwise (· < ·) ∧
      (∀ h, h ∈ elements ↔ ∃ g ≤ o.maxDepth, v.page.Below r g h) ∧
      List.Forall₂ (v.Represents o.maxDepth r) elements (v.tree o.maxDepth r).nodes := by
  intro v
  have n : v.page.Numbers s.document := Page.numbers_ofSnapshot s
  exact ⟨v.page.within o.maxDepth r, n.within_increasing o.maxDepth r, fun _ => n.mem_within_iff,
    nodes_tree n o.maxDepth r⟩

end Inspection

end AuthoredStyle
