import AuthoredStyle.Libraries.BuiltIn
import AuthoredStyle.Proofs.Dom.Family
import AuthoredStyle.Proofs.Page.Readback
import AuthoredStyle.Proofs.Page.Styled

/-!
# Pages of tables

A tree of elements in a table of nodes is read as a document tree, styled, and made into a
page. Each of these three steps goes through the elements on its own and passes over text and
comments. They meet the same elements in the same order: the numbers of the page stand for
the elements of the table as a search from the root finds them, and children and parents of
a number stand for the element children and the parent element.

The rules that the elements are styled by, and the stylesheets of the page, are left open.
-/

namespace AuthoredStyle

open Cascade (Rule)
open Dom (Level NodeId Table Tree)
open Page (ElementSnapshot Stylesheet)
open Page.Static (styledOf styledUnder)

variable {t : Table} {x r : NodeId}

namespace Dom.Table

/-! ## Styled trees -/

/-- The snapshot is one of the element, and has one of each element child, in their order. -/
inductive Depicts (t : Table) : NodeId → ElementSnapshot → Prop where
  | mk {x : NodeId} {e : Element} {values : Dict String} {below : List ElementSnapshot} :
      t.element? x = some e → List.Forall₂ t.Depicts (t.elementChildren x) below →
        Depicts t x ⟨e.tag, e.id?, e.classes, values, below⟩

theorem node?_of_element? {e : Element} (here : t.element? x = some e) :
    ∃ parent, t.node? x = some ⟨.element e, t.children x, parent⟩ := by
  cases node : t.node? x with
  | none => simp [element?, content?, node] at here
  | some n =>
    obtain ⟨content, children, parent⟩ := n
    refine ⟨parent, ?_⟩
    cases content <;> simp_all [element?, content?, Table.children]

theorem treeWithin_of_element? {e : Element} (here : t.element? x = some e) (depth : Nat) :
    t.treeWithin (depth + 1) x =
      some (.element e ((t.children x).filterMap (t.treeWithin depth))) := by
  obtain ⟨parent, node⟩ := node?_of_element? here
  rw [treeWithin, node]

/-- Only elements are read as elements. -/
theorem element?_of_treeWithin (other : t.isElement x = false) {depth : Nat} {tree : Tree}
    (read : t.treeWithin depth x = some tree) : tree.element? = none := by
  cases depth with
  | zero => cases read
  | succ depth =>
    rw [treeWithin] at read
    split at read
    · next node =>
      rw [isElement_of_node? node] at other
      cases other
    · cases read
      rfl
    · cases read
      rfl
    · cases read

theorem styledOf_cons_of_element? [Libraries] {rules : List Rule} {parent : Option (Dict String)}
    {above : List Level} {before : List Element} {tree : Tree} (other : tree.element? = none)
    (ts : List Tree) :
    styledOf rules parent above before (tree :: ts) = styledOf rules parent above before ts := by
  cases tree with
  | element => cases other
  | text => rw [styledOf]; simp
  | comment => rw [styledOf]; simp

/-- The node is read as a tree that is styled to a snapshot of it, wherever it stands. -/
def Styles [Libraries] (t : Table) (rules : List Rule) (depth : Nat) (x : NodeId) : Prop :=
  ∀ parent above before, ∃ tree s, t.treeWithin depth x = some tree ∧
    styledUnder rules parent above before tree = some s ∧ t.Depicts x s

theorem depicts_styledOf [Libraries] {rules : List Rule} {depth : Nat} {nodes : List NodeId}
    (styles : ∀ c ∈ nodes, t.isElement c → t.Styles rules depth c) (parent : Option (Dict String))
    (above : List Level) (before : List Element) :
    List.Forall₂ t.Depicts (nodes.filter fun c => t.isElement c)
      (styledOf rules parent above before (nodes.filterMap (t.treeWithin depth))) := by
  induction nodes generalizing before with
  | nil => exact .nil
  | cons c nodes ih =>
    have later := ih fun c' h => styles c' (List.mem_cons_of_mem _ h)
    by_cases element : t.isElement c
    · obtain ⟨tree, s, read, styled, depicts⟩ :=
        styles c List.mem_cons_self element parent above before
      rw [List.filter_cons_of_pos element, List.filterMap_cons_some read]
      cases tree with
      | element e children =>
        rw [styledOf, styled, Option.toList_some, List.singleton_append]
        exact .cons depicts (later _)
      | text => cases styled
      | comment => cases styled
    · rw [List.filter_cons_of_neg element]
      cases read : t.treeWithin depth c with
      | none =>
        rw [List.filterMap_cons_none read]
        exact later before
      | some tree =>
        have other := element?_of_treeWithin (Bool.not_eq_true _ ▸ element) read
        rw [List.filterMap_cons_some read, styledOf_cons_of_element? other]
        exact later before

/-- Enough generations are read if there are as many as elements. -/
theorem Rooted.styles [Libraries] (rules : List Rule) {depth : Nat} (tree : t.Rooted x)
    (enough : t.count x ≤ depth) : t.Styles rules depth x := by
  induction depth generalizing x with
  | zero => exact absurd tree.count_pos (Nat.not_lt.mpr enough)
  | succ depth ih =>
    intro parent above before
    obtain ⟨e, here⟩ := exists_element tree.element
    refine ⟨_, _, treeWithin_of_element? here depth, by rw [styledUnder], .mk here ?_⟩
    refine depicts_styledOf (fun c listed element => ?_) _ _ _
    have h : c ∈ t.elementChildren x := mem_elementChildren_iff.mpr ⟨listed, element⟩
    exact ih (tree.child h) (Nat.le_of_lt_succ ((tree.count_child_lt h).trans_le enough))

/-! ## Snapshots in document order -/

mutual

theorem Depicts.elements : ∀ {x : NodeId} (s : ElementSnapshot), t.Rooted x → t.Depicts x s →
    List.Forall₂ t.Depicts (x :: t.descendantElements x) s.elements
  | x, ⟨_, _, _, _, below⟩ => by
    rintro tree (@⟨_, e, _, _, here, all⟩)
    rw [tree.descendantElements_eq, ElementSnapshot.elements]
    exact .cons (.mk here all) (depicts_elementsOf below (fun c h => tree.child h) all)

theorem depicts_elementsOf : ∀ {xs : List NodeId} (ss : List ElementSnapshot),
    (∀ c ∈ xs, t.Rooted c) → List.Forall₂ t.Depicts xs ss →
    List.Forall₂ t.Depicts (xs.flatMap fun c => c :: t.descendantElements c) (Page.elementsOf ss)
  | _, [], _, .nil => .nil
  | x :: xs, s :: ss, trees, .cons first rest => by
    rw [List.flatMap_cons, Page.elementsOf]
    have trees' := List.forall_mem_cons.mp trees
    exact List.rel_append (Depicts.elements s trees'.1 first)
      (depicts_elementsOf ss trees'.2 rest)

end

theorem Depicts.size (s : ElementSnapshot) (tree : t.Rooted x) (depicts : t.Depicts x s) :
    s.size = (x :: t.descendantElements x).length := by
  rw [(depicts.elements s tree).length_eq, Page.length_elements]

end Dom.Table

namespace Page

/-! ## Numbers and elements -/

theorem exists_getElem?_of_forall₂ {α β : Type} {R : α → β → Prop} {xs : List α} {ys : List β}
    (all : List.Forall₂ R xs ys) {i : Nat} {x : α} (here : xs[i]? = some x) :
    ∃ y, ys[i]? = some y ∧ R x y := by
  induction all generalizing i with
  | nil => cases here
  | cons first _ ih =>
    cases i with
    | zero =>
      cases here
      exact ⟨_, rfl, first⟩
    | succ i => exact ih here

/-- Siblings have the numbers at which the search meets them. -/
theorem childNumbers_stand {all xs : List NodeId} {ss : List ElementSnapshot}
    (trees : ∀ c ∈ xs, t.Rooted c) (depicts : List.Forall₂ t.Depicts xs ss) {start : Nat}
    (next : (xs.flatMap fun c => c :: t.descendantElements c) <+: all.drop start) :
    (childNumbers start ss).map (all[·]?) = xs.map some := by
  induction depicts generalizing start with
  | nil => rfl
  | @cons x s xs ss first _ ih =>
    obtain ⟨tree, trees⟩ := List.forall_mem_cons.mp trees
    obtain ⟨rest, split⟩ := next
    rw [List.flatMap_cons, List.append_assoc] at split
    have here : all[start]? = some x := by
      rw [← List.head?_drop, ← split]
      rfl
    have behind : (xs.flatMap fun c => c :: t.descendantElements c) <+: all.drop (start + s.size) := by
      rw [← List.drop_drop, ← split, first.size s tree, List.drop_left]
      exact List.prefix_append _ _
    rw [childNumbers, List.map_cons, List.map_cons, here, ih trees behind]

section Numbers

variable {p : Page} {s : ElementSnapshot} {h : Nat}

/-- The element that the search meets at a number is the one that the number stands for. -/
theorem Numbers.holds_depicts (n : p.Numbers s) (tree : t.Rooted r) (depicts : t.Depicts r s)
    (here : (r :: t.descendantElements r)[h]? = some x) :
    ∃ above s', p.Holds h above s' ∧ t.Depicts x s' := by
  obtain ⟨s', place, depicts'⟩ := exists_getElem?_of_forall₂ (depicts.elements s tree) here
  obtain ⟨above, held⟩ := Holds.holds_at s n.held place
  rw [Nat.zero_add] at held
  exact ⟨above, s', held, depicts'⟩

theorem Holds.shows_of_depicts {above : Option Nat} (held : p.Holds h above s)
    (depicts : t.Depicts x s) : ∃ e, t.element? x = some e ∧ p.Shows h e := by
  obtain ⟨here, -⟩ := depicts
  exact ⟨_, here, held.shows⟩

/-- The children of a number stand for the element children. -/
theorem Numbers.children_stand (n : p.Numbers s) (tree : t.Rooted r) (depicts : t.Depicts r s)
    (here : (r :: t.descendantElements r)[h]? = some x) :
    (p.children h).map ((r :: t.descendantElements r)[·]?) = (t.elementChildren x).map some := by
  obtain ⟨above, s', held, depicts'⟩ := n.holds_depicts tree depicts here
  have tree' : t.Rooted x := tree.of_under (tree.mem_elements_iff.mp (List.mem_of_getElem? here))
  have next := tree.elements_isPrefix here
  rw [tree'.descendantElements_eq] at next
  rw [held.children_eq]
  obtain ⟨-, below⟩ := depicts'
  apply childNumbers_stand (fun c => tree'.child) below
  rw [← List.drop_drop]
  exact next.drop 1

/-- The parent of a number stands for the parent element, and the root's has none. -/
theorem Numbers.parent_stands (n : p.Numbers s) (tree : t.Rooted r) (depicts : t.Depicts r s)
    (here : (r :: t.descendantElements r)[h]? = some x) :
    (p.parent? h).map ((r :: t.descendantElements r)[·]?) =
      if x = r then none else (t.parentElement? x).map some := by
  have size : p.size = (r :: t.descendantElements r).length :=
    n.size_eq.trans (depicts.size s tree)
  have place := (List.getElem?_eq_some_iff.mp here).1
  have inside : h < p.size := size ▸ place
  have root : x = r ↔ h = 0 := by
    constructor
    · rintro rfl
      exact (List.getElem?_inj place tree.nodup_elements).mp here
    · rintro rfl
      cases here
      rfl
  cases link : p.parent? h with
  | none =>
    rw [if_pos (root.mpr ((n.parent?_eq_none_iff inside).mp link))]
    rfl
  | some a =>
    have notRoot : x ≠ r := fun first => by
      rw [(n.parent?_eq_none_iff inside).mpr (root.mp first)] at link
      cases link
    have listed := n.mem_children_iff.mpr link
    obtain ⟨y, here'⟩ : ∃ y, (r :: t.descendantElements r)[a]? = some y :=
      ⟨_, List.getElem?_eq_getElem (size ▸ lt_size_of_mem_children listed)⟩
    have child : some x ∈ (t.elementChildren y).map some := by
      rw [← n.children_stand tree depicts here', ← here]
      exact List.mem_map_of_mem listed
    have child : x ∈ t.elementChildren y := by simpa using child
    have under : t.Under r y := tree.mem_elements_iff.mp (List.mem_of_getElem? here')
    rw [if_neg notRoot, Option.map_some, here', Table.parentElement?,
      tree.linked y under x child, Option.filter_some, if_pos (under.isElement tree.element)]
    rfl

end Numbers

/-- A page made of a styled tree has one number for each element of the tree, in the order in
which a search from its root finds them. What it tells of a number is the element's own, its
children are the element children, and its parent is the parent element, but none for the
root. Rules and stylesheets make no difference. -/
theorem ofSnapshot_mirrors_table [Libraries] (tree : t.Rooted r) (rules : List Rule)
    (sheets : List Stylesheet) :
    ∃ document, (t.treeWithin t.nodes.size r).bind (Static.styled? rules) = some document ∧
      let p := ofSnapshot ⟨document, sheets⟩
      let all := r :: t.descendantElements r
      p.size = all.length ∧ all.Nodup ∧ (∀ x, x ∈ all ↔ t.Under r x) ∧
        (∀ x ∈ all, t.descendantElements x =
          (t.elementChildren x).flatMap fun c => c :: t.descendantElements c) ∧
        ∀ h x, all[h]? = some x →
          (∃ e, t.element? x = some e ∧ p.Shows h e) ∧
            (p.children h).map (all[·]?) = (t.elementChildren x).map some ∧
            (p.parent? h).map (all[·]?) =
              if x = r then none else (t.parentElement? x).map some := by
  obtain ⟨read, document, reads, styled, depicts⟩ :=
    tree.styles rules tree.count_le_size none [] []
  refine ⟨document, by rw [reads]; exact styled, ?_⟩
  intro p all
  have n : p.Numbers document := numbers_ofSnapshot ⟨document, sheets⟩
  refine ⟨n.size_eq.trans (depicts.size document tree), tree.nodup_elements,
    fun x => tree.mem_elements_iff, ?_, ?_⟩
  · intro x mem
    exact (tree.of_under (tree.mem_elements_iff.mp mem)).descendantElements_eq
  · intro h x here
    obtain ⟨above, s, held, depicts'⟩ := n.holds_depicts tree depicts here
    exact ⟨held.shows_of_depicts depicts', n.children_stand tree depicts here,
      n.parent_stands tree depicts here⟩

/-- Four elements with text and a comment among them; the numbers of the nodes are not in
document order. -/
def cardTable : Table where
  nodes := #[
    { content := .document, children := [1] },
    { content := .element { name := "html" }, children := [2, 5, 3], parent := some 0 },
    { content := .text "Cards" },
    { content := .element { name := "aside" }, parent := some 1 },
    { content := .element { name := "P", attributes := [("id", ""), ("class", "lead wide")] },
      parent := some 5 },
    { content := .element { name := "BODY", attributes := [("ID", "top")] },
      children := [6, 4], parent := some 1 },
    { content := .comment "lead" }]

theorem ofSnapshot_mirrors_table_of_card :
    cardTable.Rooted 1 ∧
      ∃ document, (cardTable.treeWithin 7 1).bind (Static.styled? []) = some document ∧
        let p := ofSnapshot ⟨document, []⟩
        p.size = 4 ∧ (p.tag 2, p.id? 2, p.classList 2) = ("p", none, ["lead", "wide"]) ∧
          (p.children 0).map ([1, 5, 4, 3][·]?) = [some 5, some 3] ∧
          (p.parent? 2).map ([1, 5, 4, 3][·]?) = some (some 5) := by
  have tree : cardTable.Rooted 1 :=
    Table.Consistent.rooted (by decide) 0 (by decide) (by decide)
  have order : 1 :: cardTable.descendantElements 1 = [1, 5, 4, 3] := by decide
  obtain ⟨document, styled, size, -, -, -, each⟩ := ofSnapshot_mirrors_table tree [] []
  rw [order] at size each
  obtain ⟨-, children, -⟩ := each 0 1 rfl
  obtain ⟨⟨e, here, shows⟩, -, parent⟩ := each 2 4 rfl
  cases here
  refine ⟨tree, document, styled, size, ?_, children, parent⟩
  rw [shows.tag, shows.id?, shows.classList]
  decide

end Page

end AuthoredStyle
