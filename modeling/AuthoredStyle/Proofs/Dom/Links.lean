import Mathlib.Data.List.Nodup
import AuthoredStyle.Proofs.Dom.Table

/-!
# Parent links and child lists

An element and its parent are linked twice, by the element's own link and by the parent's
list, and every operation writes both. Whatever an operation does to a table in which
they agree comes down to one thing: some nodes leave the lists that they are in, and go
to one place or to none. Behind such a move they agree again.

To insert a node is such a move only if no list holds it, since it is taken out of none,
and an element can go only under a node that has a list. Both conditions are exact.
-/

namespace AuthoredStyle.Dom.Table

/-- A node is listed once at most, in one list, and an element's parent link names the
node that lists it, or none if there is none. -/
structure Consistent (t : Table) : Prop where
  once : ∀ p, (t.children p).Nodup
  oneList : ∀ {p q x}, x ∈ t.children p → x ∈ t.children q → p = q
  linked : ∀ x, t.isElement x → ∀ p, t.parent? x = some p ↔ x ∈ t.children p

/-- What holds of a table however its nodes were inserted. -/
structure WellMade (t : Table) : Prop where
  inside : ∀ p, ∀ x ∈ t.children p, x < t.nodes.size
  barren : ∀ p, t.isParent p = false → t.children p = []
  bare : ∀ x, t.isElement x = false → t.parent? x = none

/-- Some nodes leave the lists that they are in, and go to one place or to none. -/
structure Moves (moved : List NodeId) (place : Option NodeId) (t t' : Table) : Prop where
  once : ∀ p, (t'.children p).Nodup
  arrive : ∀ x ∈ moved, ∀ p, x ∈ t'.children p ↔ place = some p
  stay : ∀ x ∉ moved, ∀ p, x ∈ t'.children p ↔ x ∈ t.children p
  relink : ∀ x ∈ moved, t'.isElement x → t'.parent? x = place
  keep : ∀ x ∉ moved, t'.isElement x → t.isElement x ∧ t'.parent? x = t.parent? x

theorem Consistent.of_moves {t t' : Table} {moved : List NodeId} {place : Option NodeId}
    (ok : t.Consistent) (moves : Moves moved place t t') : t'.Consistent where
  once := moves.once
  oneList := by
    intro p q x inP inQ
    by_cases goes : x ∈ moved
    · have toP := (moves.arrive x goes p).mp inP
      have toQ := (moves.arrive x goes q).mp inQ
      exact Option.some.inj (toP.symm.trans toQ)
    · exact ok.oneList ((moves.stay x goes p).mp inP) ((moves.stay x goes q).mp inQ)
  linked := by
    intro x element p
    by_cases goes : x ∈ moved
    · rw [moves.relink x goes element, moves.arrive x goes]
    · obtain ⟨before, link⟩ := moves.keep x goes element
      rw [link, moves.stay x goes]
      exact ok.linked x before p

variable {t : Table} {p x : NodeId}

/-- An element must not be linked to a node that has no list. -/
theorem WellMade.not_consistent (made : t.WellMade) (element : t.isElement x)
    (link : t.parent? x = some p) (leaf : t.isParent p = false) : ¬ t.Consistent := by
  intro ok
  have held := (ok.linked x element p).mp link
  rw [made.barren p leaf] at held
  exact List.not_mem_nil held

theorem WellMade.not_isHeld (made : t.WellMade) : t.nodes.size ∉ t.children p :=
  fun held => Nat.lt_irrefl _ (made.inside p _ held)

theorem isElement_of_size_le (outside : t.nodes.size ≤ x) : t.isElement x = false := by
  have absent : t.node? x = none := Array.getElem?_eq_none outside
  simp [isElement, content?, absent]

theorem isParent_of_size_le (outside : t.nodes.size ≤ x) : t.isParent x = false := by
  have absent : t.node? x = none := Array.getElem?_eq_none outside
  simp [isParent, content?, absent]

/-! ## The first table -/

theorem node?_empty (j : NodeId) :
    ({} : Table).node? j = if j = 0 then some { content := .document } else none := by
  split
  · next document => rw [document]; rfl
  · next other => exact Array.getElem?_eq_none (Nat.one_le_iff_ne_zero.mpr other)

theorem consistent_empty : ({} : Table).Consistent where
  once p := by
    rw [children, node?_empty]
    split <;> simp
  oneList {p q x} inP := by
    rw [children, node?_empty] at inP
    split at inP <;> simp at inP
  linked x element := by
    rw [isElement, content?, node?_empty] at element
    split at element <;> cases element

theorem wellMade_empty : ({} : Table).WellMade where
  inside p x held := by
    rw [children, node?_empty] at held
    split at held <;> simp at held
  barren p _ := by
    rw [children, node?_empty]
    split <;> rfl
  bare x _ := by
    rw [parent?, node?_empty]
    split <;> rfl

/-! ## What has no part in links, and new nodes -/

theorem Alike.moves {t' : Table} (alike : Alike t t') (ok : t.Consistent) : Moves [] none t t' where
  once p := by simpa only [alike.children] using ok.once p
  arrive x goes := absurd goes List.not_mem_nil
  stay x _ p := by rw [alike.children]
  relink x goes := absurd goes List.not_mem_nil
  keep x _ element := ⟨alike.isElement x ▸ element, alike.parent? x⟩

theorem Alike.wellMade {t' : Table} (alike : Alike t t') (made : t.WellMade) : t'.WellMade where
  inside p := by simpa only [alike.children, alike.size] using made.inside p
  barren p := by simpa only [alike.children, alike.isParent] using made.barren p
  bare x := by simpa only [alike.parent?, alike.isElement] using made.bare x

theorem moves_create (made : t.WellMade) (ok : t.Consistent) (c : Content) :
    Moves [t.nodes.size] none t (t.create c).1 where
  once p := by simpa using ok.once p
  arrive x new p := by
    have held : x ∉ t.children p := List.mem_singleton.mp new ▸ made.not_isHeld
    simp [held]
  stay x _ p := by rw [children_create]
  relink x new _ := by
    rw [parent?_create, List.mem_singleton.mp new]
    exact made.bare _ (isElement_of_size_le (Nat.le_refl _))
  keep x old element := by
    rw [isElement_create, if_neg (fun new => old (List.mem_singleton.mpr new))] at element
    exact ⟨element, parent?_create ..⟩

theorem WellMade.create (made : t.WellMade) (c : Content) : (t.create c).1.WellMade where
  inside p x held := by
    rw [children_create] at held
    rw [size_create]
    exact Nat.lt_succ_of_lt (made.inside p x held)
  barren p leaf := by
    rw [children_create]
    by_cases new : p = t.nodes.size
    · exact made.barren p (isParent_of_size_le (Nat.le_of_eq new.symm))
    · rw [isParent_create, if_neg new] at leaf
      exact made.barren p leaf
  bare x other := by
    rw [parent?_create]
    by_cases new : x = t.nodes.size
    · exact made.bare x (isElement_of_size_le (Nat.le_of_eq new.symm))
    · rw [isElement_create, if_neg new] at other
      exact made.bare x other

/-! ## Setting links and lists -/

theorem WellMade.setParent (made : t.WellMade) (q : Option NodeId) : (t.setParent x q).WellMade where
  inside p := by simpa using made.inside p
  barren p := by simpa using made.barren p
  bare y other := by
    rw [isElement_setParent] at other
    rw [parent?_setParent, if_neg (fun both => by simp [other] at both)]
    exact made.bare y other

theorem WellMade.setParents (made : t.WellMade) (moved : List NodeId) (q : Option NodeId) :
    (t.setParents moved q).WellMade := by
  induction moved generalizing t with
  | nil => exact made
  | cons c moved ih => exact ih (made.setParent q)

theorem WellMade.setChildren (made : t.WellMade) {f : List NodeId → List NodeId}
    (inside : ∀ y ∈ f (t.children p), y < t.nodes.size) : (t.setChildren p f).WellMade where
  inside q y held := by
    rw [children_setChildren] at held
    rw [size_setChildren]
    split at held
    · next here => exact inside y (here.1 ▸ held)
    · exact made.inside q y held
  barren q leaf := by
    rw [isParent_setChildren] at leaf
    rw [children_setChildren, if_neg (fun both => by simp [leaf] at both)]
    exact made.barren q leaf
  bare x := by simpa using made.bare x

/-! ## Inserting a node -/

/-- A parent link and a list with the node in it, whatever held the node before. -/
def place (t : Table) (x p : NodeId) (f : List NodeId → List NodeId) : Table :=
  (t.setParent x (some p)).setChildren p f

/-- Under a node that has a list a node that is listed already is listed twice, under
another one an element is listed nowhere. -/
def tangles (t : Table) (x p : NodeId) : Bool :=
  if t.isParent p then t.isHeld x else t.isElement x

section Place

variable {f : List NodeId → List NodeId}

theorem children_place (q : NodeId) :
    (t.place x p f).children q = if q = p ∧ t.isParent q then f (t.children q) else t.children q := by
  rw [place, children_setChildren, children_setParent, isParent_setParent]

theorem parent?_place (y : NodeId) :
    (t.place x p f).parent? y = if y = x ∧ t.isElement y then some p else t.parent? y := by
  rw [place, parent?_setChildren, parent?_setParent]

theorem isElement_place (y : NodeId) : (t.place x p f).isElement y = t.isElement y := by
  rw [place, isElement_setChildren, isElement_setParent]

theorem isParent_place (q : NodeId) : (t.place x p f).isParent q = t.isParent q := by
  rw [place, isParent_setChildren, isParent_setParent]

/-- Nothing is left of a node that is no element under one that has no list. -/
theorem alike_place (leaf : t.isParent p = false) (other : t.isElement x = false) :
    Alike t (t.place x p f) where
  size := by rw [place, size_setChildren, size_setParent]
  children q := by
    rw [children_place, if_neg]
    rintro ⟨rfl, list⟩
    simp [leaf] at list
  parent? y := by
    rw [parent?_place, if_neg]
    rintro ⟨rfl, element⟩
    simp [other] at element
  isElement := isElement_place
  isParent := isParent_place

variable (perm : (f (t.children p)).Perm (x :: t.children p))

include perm

theorem WellMade.place (made : t.WellMade) (known : x < t.nodes.size) : (t.place x p f).WellMade := by
  apply (made.setParent (some p)).setChildren
  intro y held
  rw [children_setParent, perm.mem_iff, List.mem_cons] at held
  rw [size_setParent]
  rcases held with rfl | held
  · exact known
  · exact made.inside p y held

theorem moves_place (ok : t.Consistent) (list : t.isParent p) (loose : ∀ q, x ∉ t.children q) :
    Moves [x] (some p) t (t.place x p f) where
  once q := by
    rw [children_place]
    split
    · next here =>
      obtain ⟨rfl, -⟩ := here
      exact perm.nodup_iff.mpr (List.nodup_cons.mpr ⟨loose q, ok.once q⟩)
    · exact ok.once q
  arrive y self q := by
    rw [List.mem_singleton.mp self, children_place]
    by_cases here : q = p
    · simp [here, list, perm.mem_iff]
    · simp [here, Ne.symm here, loose q]
  stay y other q := by
    rw [List.mem_singleton] at other
    rw [children_place]
    by_cases here : q = p
    · simp [here, list, perm.mem_iff, other]
    · simp [here]
  relink y self element := by
    rw [isElement_place] at element
    rw [parent?_place, if_pos ⟨List.mem_singleton.mp self, element⟩]
  keep y other element := by
    rw [isElement_place] at element
    refine ⟨element, ?_⟩
    rw [parent?_place, if_neg (fun both => other (List.mem_singleton.mpr both.1))]

/-- A node that is listed already is listed a second time. -/
theorem not_consistent_place (list : t.isParent p) {q : NodeId} (held : x ∈ t.children q) :
    ¬ (t.place x p f).Consistent := by
  intro ok
  have there : (t.place x p f).children p = f (t.children p) := by
    rw [children_place, if_pos ⟨rfl, list⟩]
  by_cases same : q = p
  · have distinct := ok.once p
    rw [there, perm.nodup_iff, List.nodup_cons] at distinct
    exact distinct.1 (same ▸ held)
  · apply same
    apply ok.oneList (x := x)
    · rw [children_place, if_neg (fun both => same both.1)]
      exact held
    · rw [there, perm.mem_iff]
      exact List.mem_cons_self

theorem consistent_place_iff (made : t.WellMade) (known : x < t.nodes.size) (ok : t.Consistent) :
    (t.place x p f).Consistent ↔ t.tangles x p = false := by
  rw [tangles]
  by_cases list : t.isParent p
  · rw [if_pos list, Bool.eq_false_iff, ne_eq, isHeld_iff]
    constructor
    · rintro ok' ⟨q, held⟩
      exact not_consistent_place perm list held ok'
    · intro loose
      exact ok.of_moves (moves_place perm ok list fun q held => loose ⟨q, held⟩)
  · rw [if_neg list]
    have leaf := Bool.eq_false_iff.mpr list
    constructor
    · intro ok'
      by_contra element
      rw [Bool.not_eq_false] at element
      refine (made.place perm known).not_consistent (x := x) (p := p) ?_ ?_ ?_ ok'
      · rw [isElement_place, element]
      · rw [parent?_place, if_pos ⟨rfl, element⟩]
      · rw [isParent_place, leaf]
    · intro other
      exact ok.of_moves ((alike_place leaf other).moves ok)

end Place

/-! ## Taking a node out -/

theorem moves_remove (made : t.WellMade) (ok : t.Consistent) (link : t.parent? x = some p) :
    Moves [x] none t ((t.setChildren p (·.filter (· ≠ x))).setParent x none) where
  once q := by
    rw [children_setParent, children_setChildren]
    split
    · exact (ok.once q).filter _
    · exact ok.once q
  arrive y self q := by
    rw [List.mem_singleton.mp self, children_setParent, children_setChildren]
    have element : t.isElement x := by
      by_contra other
      simp [made.bare x (Bool.eq_false_iff.mpr other)] at link
    -- no list but the parent's holds the node, so one list is enough to clear
    have only : x ∈ t.children q → p = q := fun held =>
      Option.some.inj (link.symm.trans ((ok.linked x element q).mpr held))
    constructor
    · intro held
      split at held
      · simp at held
      · next elsewhere =>
        obtain rfl := only held
        have leaf : t.isParent p = false := by simpa using elsewhere
        simp [made.barren p leaf] at held
    · intro goes
      cases goes
  stay y other q := by
    rw [List.mem_singleton] at other
    rw [children_setParent, children_setChildren]
    split <;> simp [other]
  relink y self element := by
    rw [isElement_setParent, isElement_setChildren] at element
    rw [parent?_setParent, isElement_setChildren, if_pos ⟨List.mem_singleton.mp self, element⟩]
  keep y other element := by
    rw [isElement_setParent, isElement_setChildren] at element
    rw [List.mem_singleton] at other
    refine ⟨element, ?_⟩
    rw [parent?_setParent, if_neg (fun both => other both.1), parent?_setChildren]

theorem Consistent.remove (ok : t.Consistent) (made : t.WellMade) : (t.remove x).Consistent := by
  unfold Table.remove
  split
  · exact ok
  · next link => exact ok.of_moves (moves_remove made ok link)

theorem WellMade.remove (made : t.WellMade) : (t.remove x).WellMade := by
  unfold Table.remove
  split
  · exact made
  · next p _ =>
    apply (made.setChildren _).setParent
    intro y held
    exact made.inside p y (List.mem_of_mem_filter held)

/-! ## Moving all children of a node -/

section Reparent

variable {a b : NodeId}

/-- The list is emptied, the links are set, and the new list is extended. -/
theorem reparent_eq : t.reparent a b =
    ((t.setChildren a fun _ => []).setParents (t.children a) (some b)).setChildren b
      (· ++ t.children a) := rfl

theorem isElement_reparent (x : NodeId) : (t.reparent a b).isElement x = t.isElement x := by
  rw [reparent_eq, isElement_setChildren, isElement_setParents, isElement_setChildren]

theorem isParent_reparent (p : NodeId) : (t.reparent a b).isParent p = t.isParent p := by
  rw [reparent_eq, isParent_setChildren, isParent_setParents, isParent_setChildren]

theorem parent?_reparent (x : NodeId) : (t.reparent a b).parent? x =
    if x ∈ t.children a ∧ t.isElement x then some b else t.parent? x := by
  rw [reparent_eq, parent?_setChildren, parent?_setParents, isElement_setChildren,
    parent?_setChildren]

theorem children_reparent (made : t.WellMade) (p : NodeId) :
    (t.reparent a b).children p =
      (if p = a then [] else t.children p) ++ if p = b ∧ t.isParent p then t.children a else [] := by
  have cleared : (t.setChildren a fun _ => []).children p = if p = a then [] else t.children p := by
    rw [children_setChildren]
    by_cases here : p = a
    · subst here
      by_cases list : t.isParent p
      · simp [list]
      · simp [made.barren p (Bool.eq_false_iff.mpr list)]
    · simp [here]
  rw [reparent_eq, children_setChildren, isParent_setParents, isParent_setChildren,
    children_setParents, cleared]
  split
  · rfl
  · rw [List.append_nil]

theorem WellMade.reparent (made : t.WellMade) : (t.reparent a b).WellMade := by
  have cleared : (t.setChildren a fun _ => []).WellMade := made.setChildren (by simp)
  rw [reparent_eq]
  apply (cleared.setParents _ _).setChildren
  intro y held
  rw [children_setParents, List.mem_append] at held
  rw [size_setParents, size_setChildren]
  rcases held with held | held
  · have := cleared.inside b y held
    rwa [size_setChildren] at this
  · exact made.inside a y held

/-- The children go to the new parent, if that has a list. -/
theorem moves_reparent (made : t.WellMade) (ok : t.Consistent)
    (fits : t.isParent b ∨ ∀ x ∈ t.children a, t.isElement x = false) :
    Moves (t.children a) (if t.isParent b then some b else none) t (t.reparent a b) where
  once p := by
    rw [children_reparent made]
    by_cases left : p = a
    · rw [if_pos left, List.nil_append]
      split
      · exact ok.once a
      · exact List.nodup_nil
    · rw [if_neg left]
      split
      · apply (ok.once p).append (ok.once a)
        intro x inP inA
        exact left (ok.oneList inP inA)
      · rw [List.append_nil]
        exact ok.once p
  arrive x goes p := by
    have gone : x ∉ if p = a then [] else t.children p := by
      split
      · exact List.not_mem_nil
      · next left => exact fun held => left (ok.oneList held goes)
    rw [children_reparent made, List.mem_append, or_iff_right gone]
    by_cases here : p = b
    · subst here
      by_cases list : t.isParent p <;> simp [list, goes]
    · by_cases list : t.isParent b <;> simp [list, here, Ne.symm here]
  stay x stays p := by
    rw [children_reparent made, List.mem_append]
    by_cases left : p = a
    · subst left
      split <;> simp [stays]
    · rw [if_neg left]
      split <;> simp [stays]
  relink x goes element := by
    rw [isElement_reparent] at element
    rw [parent?_reparent, if_pos ⟨goes, element⟩, if_pos]
    apply fits.resolve_right
    intro others
    simp [others x goes] at element
  keep x stays element := by
    rw [isElement_reparent] at element
    refine ⟨element, ?_⟩
    rw [parent?_reparent, if_neg (fun both => stays both.1)]

theorem consistent_reparent_iff (made : t.WellMade) (ok : t.Consistent) :
    (t.reparent a b).Consistent ↔ t.isParent b ∨ ∀ x ∈ t.children a, t.isElement x = false := by
  constructor
  · intro ok'
    by_cases list : t.isParent b
    · exact .inl list
    · refine .inr fun x goes => ?_
      by_contra element
      rw [Bool.not_eq_false] at element
      refine made.reparent.not_consistent (x := x) (p := b) ?_ ?_ ?_ ok'
      · rw [isElement_reparent, element]
      · rw [parent?_reparent, if_pos ⟨goes, element⟩]
      · rw [isParent_reparent]
        exact Bool.eq_false_iff.mpr list
  · intro fits
    exact ok.of_moves (moves_reparent made ok fits)

end Reparent

end AuthoredStyle.Dom.Table
