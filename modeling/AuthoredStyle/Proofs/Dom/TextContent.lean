import AuthoredStyle.Proofs.Dom.Acyclic

/-!
# Text below nodes

The text below a node is that of its children, in their order. In a table without cycles every
way down ends, behind no more steps than there are nodes. So the trees below children of the
table are whole, however many nodes are made later, and they stay the same as long as no node
in them changes.
-/

namespace AuthoredStyle.Dom

theorem textOf_append (a b : List Tree) : textOf (a ++ b) = textOf a ++ textOf b := by
  induction a with
  | nil => exact (String.empty_append ..).symm
  | cons t ts ih => rw [List.cons_append, textOf, textOf, ih, String.append_assoc]

namespace Table

variable {t t' : Table} {p x y : NodeId}

/-- What is written in some nodes and below them, read as far down as `trees` reads a document. -/
def textBelow (t : Table) (l : List NodeId) : String :=
  textOf (l.filterMap (t.treeWithin t.nodes.size))

/-- What is written below a node. -/
def textContent (t : Table) (p : NodeId) : String := t.textBelow (t.children p)

theorem textBelow_append (a b : List NodeId) :
    t.textBelow (a ++ b) = t.textBelow a ++ t.textBelow b := by
  rw [textBelow, List.filterMap_append, textOf_append, textBelow, textBelow]

/-! ## How far down a node reaches -/

/-- The number of nodes from a node on. -/
noncomputable def extent (t : Table) (x : NodeId) : Nat := {y | t.Within x y}.ncard

theorem WellMade.lt_size_of_within (made : t.WellMade) (inside : x < t.nodes.size)
    (below : t.Within x y) : y < t.nodes.size := by
  cases below with
  | self => exact inside
  | child _ held => exact made.inside _ y held

theorem WellMade.within_subset (made : t.WellMade) (inside : x < t.nodes.size) :
    {y | t.Within x y} ⊆ (Finset.range t.nodes.size : Set NodeId) := by
  intro y below
  exact Finset.mem_coe.mpr (Finset.mem_range.mpr (made.lt_size_of_within inside below))

theorem WellMade.finite_within (made : t.WellMade) (inside : x < t.nodes.size) :
    {y | t.Within x y}.Finite :=
  (Finset.finite_toSet _).subset (made.within_subset inside)

theorem WellMade.extent_pos (made : t.WellMade) (inside : x < t.nodes.size) : 0 < t.extent x :=
  (Set.ncard_pos (made.finite_within inside)).mpr ⟨x, .self⟩

theorem WellMade.extent_le_size (made : t.WellMade) (inside : x < t.nodes.size) :
    t.extent x ≤ t.nodes.size := by
  have bound := Set.ncard_le_ncard (made.within_subset inside) (Finset.finite_toSet _)
  rwa [Set.ncard_coe_finset, Finset.card_range] at bound

theorem Acyclic.extent_lt (acyclic : t.Acyclic) (made : t.WellMade) (held : y ∈ t.children x) :
    t.extent y < t.extent x := by
  refine Set.ncard_lt_ncard ⟨fun z below => ?_, fun all => ?_⟩
    (made.finite_within (lt_size_of_mem_children held))
  · exact (Within.of_mem held).trans below
  · exact acyclic x y held (all (show t.Within x x from .self))

/-! ## Trees -/

theorem treeWithin_succ (depth : Nat) :
    t.treeWithin (depth + 1) x =
      match t.content? x with
      | some (.element e) => some (.element e ((t.children x).filterMap (t.treeWithin depth)))
      | some (.text s) => some (.text s)
      | some (.comment s) => some (.comment s)
      | _ => none := by
  rw [treeWithin, content?, children]
  cases t.node? x with
  | none => rfl
  | some n =>
    obtain ⟨content, children, parent⟩ := n
    cases content <;> rfl

/-- A search that may go down as far as a node reaches meets its whole tree. -/
theorem Acyclic.treeWithin_eq (acyclic : t.Acyclic) (made : t.WellMade) (inside : x < t.nodes.size)
    {depth depth' : Nat} (enough : t.extent x ≤ depth) (enough' : t.extent x ≤ depth') :
    t.treeWithin depth x = t.treeWithin depth' x := by
  induction depth generalizing depth' x with
  | zero => exact absurd (made.extent_pos inside) (Nat.not_lt.mpr enough)
  | succ depth ih =>
    cases depth' with
    | zero => exact absurd (made.extent_pos inside) (Nat.not_lt.mpr enough')
    | succ depth' =>
      have below : (t.children x).filterMap (t.treeWithin depth) =
          (t.children x).filterMap (t.treeWithin depth') := by
        refine List.filterMap_congr fun c held => ?_
        have smaller := acyclic.extent_lt made held
        exact ih (made.inside x c held) (Nat.le_of_lt_succ (smaller.trans_le enough))
          (Nat.le_of_lt_succ (smaller.trans_le enough'))
      rw [treeWithin_succ, treeWithin_succ, below]

/-- The tree from a node on depends on the nodes in it alone. -/
theorem treeWithin_congr
    (same : ∀ y, t.Within x y → t'.content? y = t.content? y ∧ t'.children y = t.children y)
    (depth : Nat) : t'.treeWithin depth x = t.treeWithin depth x := by
  induction depth generalizing x with
  | zero => rfl
  | succ depth ih =>
    have below : (t.children x).filterMap (t'.treeWithin depth) =
        (t.children x).filterMap (t.treeWithin depth) :=
      List.filterMap_congr fun c held => ih fun y lower => same y ((Within.of_mem held).trans lower)
    rw [treeWithin_succ, treeWithin_succ, (same x .self).1, (same x .self).2, below]

theorem treeWithin_of_text {s : String} (text : t.content? x = some (.text s)) {depth : Nat}
    (positive : 0 < depth) : t.treeWithin depth x = some (.text s) := by
  obtain ⟨depth, rfl⟩ := Nat.exists_eq_succ_of_ne_zero (Nat.ne_of_gt positive)
  rw [treeWithin_succ, text]

/-! ## Text -/

theorem textBelow_of_text {s : String} (text : t.content? x = some (.text s)) :
    t.textBelow [x] = s := by
  have positive : 0 < t.nodes.size := by
    apply Nat.pos_of_ne_zero
    intro none
    have absent : t.node? x = .none := Array.getElem?_eq_none (none ▸ Nat.zero_le x)
    rw [content?, absent] at text
    cases text
  rw [textBelow, List.filterMap_cons, treeWithin_of_text text positive]
  exact String.append_empty

/-- Text of nodes stays the same if nodes are made and none is changed that is in them. -/
theorem Acyclic.textBelow_congr (acyclic : t.Acyclic) (made : t.WellMade) {l : List NodeId}
    (grown : t.nodes.size ≤ t'.nodes.size) (inside : ∀ x ∈ l, x < t.nodes.size)
    (same : ∀ x ∈ l, ∀ y, t.Within x y →
      t'.content? y = t.content? y ∧ t'.children y = t.children y) :
    t'.textBelow l = t.textBelow l := by
  have trees : l.filterMap (t'.treeWithin t'.nodes.size) =
      l.filterMap (t.treeWithin t.nodes.size) := by
    refine List.filterMap_congr fun x mem => ?_
    have reach := made.extent_le_size (inside x mem)
    rw [treeWithin_congr (same x mem)]
    exact acyclic.treeWithin_eq made (inside x mem) (reach.trans grown) reach
  rw [textBelow, trees, textBelow]

/-- Text of some children of a node stays the same if no other list is changed than the node's
own, and no content below the children. -/
theorem Acyclic.textBelow_part (acyclic : t.Acyclic) (made : t.WellMade) {l : List NodeId}
    (part : ∀ x ∈ l, x ∈ t.children p) (grown : t.nodes.size ≤ t'.nodes.size)
    (lists : ∀ q ≠ p, t'.children q = t.children q)
    (contents : ∀ x ∈ l, ∀ y, t.Within x y → t'.content? y = t.content? y) :
    t'.textBelow l = t.textBelow l := by
  apply acyclic.textBelow_congr made grown
  · exact fun x mem => made.inside p x (part x mem)
  · intro x mem y below
    refine ⟨contents x mem y below, lists y ?_⟩
    rintro rfl
    exact acyclic y x (part x mem) below

end Table

end AuthoredStyle.Dom
