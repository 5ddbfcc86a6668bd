import Mathlib.Data.Set.Card
import Mathlib.Logic.Relation
import AuthoredStyle.Proofs.Dom.Links

/-!
# Elements in a table

Between elements the nodes of a table are linked to their element children and to their
parent element; text and comments are passed over. An element roots a tree if links below it
agree and none of them leads back to it. Then every element below it roots a tree too, no two
of these trees overlap unless one is in the other, and there are no more elements in a tree
than nodes in the table. So a search that may go down as many generations as there are nodes
meets each element of the tree once, an element before its descendants and those before the
elements that follow.

How the table came about, and what it holds elsewhere, plays no part in this.
-/

namespace AuthoredStyle.Dom.Table

variable (t : Table)

/-- The children that are elements, in their order. -/
def elementChildren (x : NodeId) : List NodeId := (t.children x).filter fun c => t.isElement c

/-- The parent, if it is an element. -/
def parentElement? (x : NodeId) : Option NodeId := (t.parent? x).filter fun p => t.isElement p

/-- The elements below a node in document order, at most `depth` generations of them. -/
def descendantsWithin (t : Table) : (depth : Nat) → NodeId → List NodeId
  | 0, _ => []
  | depth + 1, x => (t.elementChildren x).flatMap fun c => c :: t.descendantsWithin depth c

/-- There are no more generations than nodes. -/
def descendantElements (x : NodeId) : List NodeId := t.descendantsWithin t.nodes.size x

/-- The second node is the first one, or an element that can be reached from it. -/
def Under : NodeId → NodeId → Prop :=
  Relation.ReflTransGen fun p x => x ∈ t.elementChildren p

/-- The element and those below it are a tree, in which parent links and child lists agree.
The parent link of the element itself may lead anywhere. -/
structure Rooted (r : NodeId) : Prop where
  element : t.isElement r
  once : ∀ p, t.Under r p → (t.elementChildren p).Nodup
  linked : ∀ p, t.Under r p → ∀ x ∈ t.elementChildren p, t.parent? x = some p
  top : ∀ p, t.Under r p → r ∉ t.elementChildren p

variable {t} {r x y : NodeId}

theorem mem_elementChildren_iff : y ∈ t.elementChildren x ↔ y ∈ t.children x ∧ t.isElement y :=
  List.mem_filter

theorem lt_size_of_isElement (element : t.isElement x) : x < t.nodes.size := by
  apply Nat.lt_of_not_le
  intro outside
  rw [isElement_of_size_le outside] at element
  cases element

theorem exists_element (element : t.isElement x) : ∃ e, t.element? x = some e := by
  cases content : t.content? x with
  | none => simp [isElement, content] at element
  | some c =>
    cases c with
    | element e => exact ⟨e, by simp [element?, content]⟩
    | document => simp [isElement, content, Content.isElement] at element
    | text => simp [isElement, content, Content.isElement] at element
    | comment => simp [isElement, content, Content.isElement] at element

/-! ## Trees in trees -/

namespace Under

theorem child (h : y ∈ t.elementChildren x) : t.Under x y := .single h

theorem cases_child (h : t.Under x y) : x = y ∨ ∃ c ∈ t.elementChildren x, t.Under c y :=
  Relation.ReflTransGen.cases_head h

theorem isElement (h : t.Under r x) (element : t.isElement r) : t.isElement x := by
  cases h with
  | refl => exact element
  | tail _ last => exact (mem_elementChildren_iff.mp last).2

end Under

namespace Rooted

/-- No element of a tree is below itself. -/
theorem not_mem_elementChildren (tree : t.Rooted r) (h : t.Under r x) :
    ∀ p, t.Under x p → x ∉ t.elementChildren p := by
  induction h with
  | refl => exact tree.top
  | @tail q x above listed ih =>
    intro p below again
    -- the way back to the element goes through its parent, which is then below itself
    have same : q = p := Option.some.inj
      ((tree.linked q above x listed).symm.trans
        (tree.linked p ((above.tail listed).trans below) x again))
    subst same
    rcases Relation.ReflTransGen.cases_tail below with rfl | ⟨s, between, last⟩
    · exact ih q .refl listed
    · exact ih s (.head listed between) last

theorem of_under (tree : t.Rooted r) (h : t.Under r x) : t.Rooted x where
  element := h.isElement tree.element
  once p below := tree.once p (h.trans below)
  linked p below := tree.linked p (h.trans below)
  top := tree.not_mem_elementChildren h

theorem child (tree : t.Rooted x) (h : y ∈ t.elementChildren x) : t.Rooted y :=
  tree.of_under (.child h)

/-- The parent is not below its child. -/
theorem not_under (tree : t.Rooted x) (h : y ∈ t.elementChildren x) : ¬ t.Under y x :=
  fun back => (tree.child h).top x back h

/-- Of two elements above a third one, one is below the other. -/
theorem under_or_under (tree : t.Rooted r) {a b : NodeId} (ha : t.Under r a) (hb : t.Under r b)
    (aboveA : t.Under a y) (aboveB : t.Under b y) : t.Under a b ∨ t.Under b a := by
  induction aboveA with
  | refl => exact .inr aboveB
  | @tail p y above listed ih =>
    rcases Relation.ReflTransGen.cases_tail aboveB with rfl | ⟨q, above', listed'⟩
    · exact .inl (above.tail listed)
    · have same : p = q := Option.some.inj
        ((tree.linked p (ha.trans above) y listed).symm.trans
          (tree.linked q (hb.trans above') y listed'))
      exact ih (same ▸ above')

/-- Below different children there are different elements. -/
theorem eq_of_under (tree : t.Rooted x) {a b : NodeId} (ha : a ∈ t.elementChildren x)
    (hb : b ∈ t.elementChildren x) (aboveA : t.Under a y) (aboveB : t.Under b y) : a = b := by
  -- a child cannot be below another one, since its parent link leads back to `x`
  have apart {a b : NodeId} (ha : a ∈ t.elementChildren x) (hb : b ∈ t.elementChildren x)
      (h : t.Under a b) : a = b := by
    rcases Relation.ReflTransGen.cases_tail h with rfl | ⟨q, between, last⟩
    · rfl
    · have same : q = x := Option.some.inj
        ((tree.linked q ((Under.child ha).trans between) b last).symm.trans
          (tree.linked x .refl b hb))
      exact absurd (same ▸ between) (tree.not_under ha)
  rcases tree.under_or_under (.child ha) (.child hb) aboveA aboveB with h | h
  · exact apart ha hb h
  · exact (apart hb ha h).symm

end Rooted

/-! ## How many elements a tree has -/

/-- The number of elements from a node on. -/
noncomputable def count (t : Table) (x : NodeId) : Nat := {y | t.Under x y}.ncard

namespace Rooted

theorem under_subset (tree : t.Rooted x) :
    {y | t.Under x y} ⊆ (Finset.range t.nodes.size : Set NodeId) := by
  intro y h
  exact Finset.mem_coe.mpr (Finset.mem_range.mpr (lt_size_of_isElement (h.isElement tree.element)))

theorem finite (tree : t.Rooted x) : {y | t.Under x y}.Finite :=
  (Finset.finite_toSet _).subset tree.under_subset

theorem count_pos (tree : t.Rooted x) : 0 < t.count x :=
  (Set.ncard_pos tree.finite).mpr ⟨x, .refl⟩

theorem count_le_size (tree : t.Rooted x) : t.count x ≤ t.nodes.size := by
  have bound := Set.ncard_le_ncard tree.under_subset (Finset.finite_toSet _)
  rwa [Set.ncard_coe_finset, Finset.card_range] at bound

theorem count_child_lt (tree : t.Rooted x) (h : y ∈ t.elementChildren x) :
    t.count y < t.count x := by
  refine Set.ncard_lt_ncard ⟨fun z below => ?_, fun all => ?_⟩ tree.finite
  · exact (Under.child h).trans below
  · exact tree.not_under h (all (show t.Under x x from .refl))

/-- What holds of an element if it holds of its children holds of every root. -/
theorem induct {P : NodeId → Prop}
    (step : ∀ x, t.Rooted x → (∀ c ∈ t.elementChildren x, P c) → P x) (tree : t.Rooted x) : P x := by
  generalize size : t.count x = n
  induction n using Nat.strong_induction_on generalizing x with
  | _ n ih =>
    exact step x tree fun c h => ih _ (size ▸ tree.count_child_lt h) (tree.child h) rfl

end Rooted

/-! ## All elements of a tree -/

/-- What follows an item in the part of a list that the item is in follows it in the list. -/
theorem flatMap_isPrefix {α : Type} {f : α → List α} {cs : List α} {x : α} {i : Nat}
    (within : ∀ c ∈ cs, ∀ i, (f c)[i]? = some x → f x <+: (f c).drop i)
    (here : (cs.flatMap f)[i]? = some x) : f x <+: (cs.flatMap f).drop i := by
  induction cs generalizing i with
  | nil => cases here
  | cons c cs ih =>
    rw [List.flatMap_cons] at here ⊢
    by_cases early : i < (f c).length
    · rw [List.getElem?_append_left early] at here
      rw [List.drop_append_of_le_length (Nat.le_of_lt early)]
      exact (within c List.mem_cons_self i here).trans (List.prefix_append _ _)
    · have late := Nat.not_lt.mp early
      rw [List.getElem?_append_right late] at here
      rw [List.drop_append, List.drop_eq_nil_of_le late, List.nil_append]
      exact ih (fun c h => within c (List.mem_cons_of_mem _ h)) here

namespace Rooted

theorem descendantsWithin_eq (tree : t.Rooted x) {depth depth' : Nat} (enough : t.count x ≤ depth)
    (enough' : t.count x ≤ depth') : t.descendantsWithin depth x = t.descendantsWithin depth' x := by
  induction depth generalizing depth' x with
  | zero => exact absurd tree.count_pos (Nat.not_lt.mpr enough)
  | succ depth ih =>
    cases depth' with
    | zero => exact absurd tree.count_pos (Nat.not_lt.mpr enough')
    | succ depth' =>
      rw [descendantsWithin, descendantsWithin]
      refine List.flatMap_congr fun c h => ?_
      have smaller := tree.count_child_lt h
      rw [ih (tree.child h) (Nat.le_of_lt_succ (smaller.trans_le enough))
        (Nat.le_of_lt_succ (smaller.trans_le enough'))]

/-- The search goes down from child to child. -/
theorem descendantElements_eq (tree : t.Rooted x) :
    t.descendantElements x =
      (t.elementChildren x).flatMap fun c => c :: t.descendantElements c := by
  have deeper : t.descendantElements x = t.descendantsWithin (t.nodes.size + 1) x :=
    tree.descendantsWithin_eq tree.count_le_size (Nat.le_succ_of_le tree.count_le_size)
  rw [deeper, descendantsWithin]
  rfl

theorem mem_elements_iff (tree : t.Rooted x) : y ∈ x :: t.descendantElements x ↔ t.Under x y := by
  refine tree.induct (P := fun x => y ∈ x :: t.descendantElements x ↔ t.Under x y) ?_
  intro x tree ih
  rw [tree.descendantElements_eq, List.mem_cons, List.mem_flatMap]
  constructor
  · rintro (rfl | ⟨c, h, below⟩)
    · exact .refl
    · exact .head h ((ih c h).mp below)
  · intro below
    rcases below.cases_child with rfl | ⟨c, h, below⟩
    · exact .inl rfl
    · exact .inr ⟨c, h, (ih c h).mpr below⟩

theorem nodup_elements (tree : t.Rooted x) : (x :: t.descendantElements x).Nodup := by
  refine tree.induct (P := fun x => (x :: t.descendantElements x).Nodup) ?_
  intro x tree ih
  rw [tree.descendantElements_eq, List.nodup_cons, List.nodup_flatMap]
  refine ⟨?_, ih, ?_⟩
  · rw [List.mem_flatMap]
    rintro ⟨c, h, below⟩
    exact tree.not_under h ((tree.child h).mem_elements_iff.mp below)
  · refine (tree.once x .refl).imp_of_mem ?_
    intro a b ha hb other y inA inB
    exact other (tree.eq_of_under ha hb ((tree.child ha).mem_elements_iff.mp inA)
      ((tree.child hb).mem_elements_iff.mp inB))

/-- In document order an element is followed by its descendants. -/
theorem elements_isPrefix (tree : t.Rooted r) {i : Nat}
    (here : (r :: t.descendantElements r)[i]? = some x) :
    x :: t.descendantElements x <+: (r :: t.descendantElements r).drop i := by
  refine tree.induct (P := fun r => ∀ i, (r :: t.descendantElements r)[i]? = some x →
    x :: t.descendantElements x <+: (r :: t.descendantElements r).drop i) ?_ i here
  intro r tree ih i here
  cases i with
  | zero =>
    cases here
    exact List.prefix_rfl
  | succ i =>
    rw [tree.descendantElements_eq, List.getElem?_cons_succ] at here
    rw [List.drop_succ_cons, tree.descendantElements_eq]
    exact flatMap_isPrefix ih here

end Rooted

/-! ## Consistent tables -/

theorem children_of_size_le (outside : t.nodes.size ≤ x) : t.children x = [] := by
  have absent : t.node? x = none := Array.getElem?_eq_none outside
  simp [children, absent]

theorem consistent_iff :
    t.Consistent ↔
      (∀ p < t.nodes.size, (t.children p).Nodup ∧ ∀ x ∈ t.children p,
        (t.isElement x → t.parent? x = some p) ∧
          ∀ q < t.nodes.size, x ∈ t.children q → p = q) ∧
      ∀ x < t.nodes.size, t.isElement x → ∀ p ∈ t.parent? x, x ∈ t.children p := by
  constructor
  · intro ok
    refine ⟨fun p _ => ⟨ok.once p, fun x held => ⟨fun element => ?_, fun q _ => ?_⟩⟩, ?_⟩
    · exact (ok.linked x element p).mpr held
    · exact ok.oneList held
    · exact fun x _ element p => (ok.linked x element p).mp
  · rintro ⟨lists, links⟩
    refine ⟨fun p => ?_, fun {p q x} inP inQ => ?_, fun x element p => ⟨fun link => ?_, fun held => ?_⟩⟩
    · rcases Nat.lt_or_ge p t.nodes.size with inside | outside
      · exact (lists p inside).1
      · rw [children_of_size_le outside]
        exact .nil
    · exact ((lists p (lt_size_of_mem_children inP)).2 x inP).2 q (lt_size_of_mem_children inQ) inQ
    · exact links x (lt_size_of_isElement element) element p link
    · exact ((lists p (lt_size_of_mem_children held)).2 x held).1 element

instance : Decidable t.Consistent := decidable_of_iff _ consistent_iff.symm

/-- Where all links agree, an element roots a tree if it is listed by a node that no list
holds, as the document is. -/
theorem Consistent.rooted (ok : t.Consistent) (top : NodeId) (loose : t.isHeld top = false)
    (h : r ∈ t.elementChildren top) : t.Rooted r where
  element := (mem_elementChildren_iff.mp h).2
  once p _ := (ok.once p).filter _
  linked p _ x h :=
    have ⟨listed, element⟩ := mem_elementChildren_iff.mp h
    (ok.linked x element p).mpr listed
  top := by
    intro p below again
    have same : p = top :=
      ok.oneList (mem_elementChildren_iff.mp again).1 (mem_elementChildren_iff.mp h).1
    have free (q : NodeId) : top ∉ t.elementChildren q := fun held =>
      absurd (isHeld_iff.mpr ⟨q, (mem_elementChildren_iff.mp held).1⟩) (by simp [loose])
    rcases Relation.ReflTransGen.cases_tail (same ▸ below) with rfl | ⟨q, -, last⟩
    · exact free _ h
    · exact free q last

end AuthoredStyle.Dom.Table
