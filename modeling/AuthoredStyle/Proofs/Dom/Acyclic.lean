import AuthoredStyle.Proofs.Dom.Construction
import AuthoredStyle.Proofs.Dom.Family

/-!
# Tables without cycles

Child lists lead down. No call makes a node stand below itself unless it puts a node under
one that is below it already. Where a call puts a node is not always
where its caller sees it go: a node is inserted before a sibling under the parent that the
sibling's link names, and that may be another one than a list that the sibling is in.
-/

namespace AuthoredStyle.Dom.Table

variable {t t' : Table} {p x y z : NodeId} {moved : List NodeId}

theorem Within.trans (first : t.Within x y) (second : t.Within y z) : t.Within x z := by
  induction second with
  | self => exact first
  | child _ held ih => exact ih.child held

theorem Within.of_mem (held : y ∈ t.children x) : t.Within x y := Within.self.child held

/-- No node is below one of its children. -/
def Acyclic (t : Table) : Prop :=
  ∀ p, ∀ x ∈ t.children p, ¬ t.Within x p

theorem acyclic_empty : ({} : Table).Acyclic := by
  intro p x held
  rw [children, node?_empty] at held
  split at held <;> simp at held

/-! ## What lists gain -/

/-- Lists hold what they held before, and some nodes are put under `p`. -/
def Gains (t t' : Table) (p : NodeId) (moved : List NodeId) : Prop :=
  ∀ q, ∀ x ∈ t'.children q, x ∈ t.children q ∨ q = p ∧ x ∈ moved

theorem gains_of_children_subset (less : ∀ q, t'.children q ⊆ t.children q) : Gains t t' p [] :=
  fun q _ held => .inl (less q held)

/-- A new way down is an old one, or leads through one of the nodes that were put under `p`. -/
theorem Within.of_gains (gains : Gains t t' p moved) (h : t'.Within x y) :
    t.Within x y ∨ t.Within x p ∧ ∃ m ∈ moved, t.Within m y := by
  induction h with
  | self => exact .inl .self
  | @child q y _ held ih =>
    rcases gains q y held with old | ⟨rfl, new⟩
    · rcases ih with way | ⟨up, m, put, down⟩
      · exact .inl (way.child old)
      · exact .inr ⟨up, m, put, down.child old⟩
    · rcases ih with way | ⟨up, -⟩
      · exact .inr ⟨way, y, new, .self⟩
      · exact .inr ⟨up, y, new, .self⟩

theorem Acyclic.of_gains (acyclic : t.Acyclic) (gains : Gains t t' p moved)
    (apart : ∀ m ∈ moved, ¬ t.Within m p) : t'.Acyclic := by
  intro q x held way
  rcases gains q x held with old | ⟨rfl, new⟩
  · rcases way.of_gains gains with way | ⟨up, m, put, down⟩
    · exact acyclic q x old way
    · exact apart m put ((down.child old).trans up)
  · rcases way.of_gains gains with way | ⟨up, -⟩
    · exact apart x new way
    · exact apart x new up

theorem Acyclic.of_children_subset (acyclic : t.Acyclic)
    (less : ∀ q, t'.children q ⊆ t.children q) : t'.Acyclic :=
  acyclic.of_gains (p := 0) (gains_of_children_subset less) fun _ put => nomatch put

/-! ## Calls -/

/-- What a call puts under a node does not have that node below it. -/
def Grounded (t : Table) : Call → Prop
  | .append parent new => ∀ x ∈ new.nodes, ¬ t.Within x parent
  | .appendBefore sibling new => ∀ p ∈ t.parent? sibling, ∀ x ∈ new.nodes, ¬ t.Within x p
  | .appendByParent element previous new =>
    ∀ x ∈ new.nodes, ¬ t.Within x ((t.parent? element).getD previous)
  | .reparent node newParent => ∀ x ∈ t.children node, ¬ t.Within x newParent
  | _ => True

namespace Acyclic

variable (acyclic : t.Acyclic)

include acyclic

theorem create (c : Content) : (t.create c).1.Acyclic :=
  acyclic.of_children_subset fun q => by rw [children_create]; exact List.Subset.refl _

theorem of_alike (alike : Alike t t') : t'.Acyclic :=
  acyclic.of_children_subset fun q => by rw [alike.children]; exact List.Subset.refl _

theorem place {f : List NodeId → List NodeId} (perm : (f (t.children p)).Perm (x :: t.children p))
    (apart : t.isParent p → ¬ t.Within x p) : (t.place x p f).Acyclic := by
  by_cases list : t.isParent p
  · have gains : Gains t (t.place x p f) p [x] := by
      intro q y held
      rw [children_place] at held
      split at held
      · next here =>
        rw [here.1, perm.mem_iff, List.mem_cons] at held
        rcases held with rfl | held
        · exact .inr ⟨here.1, List.mem_singleton.mpr rfl⟩
        · exact .inl (here.1 ▸ held)
      · exact .inl held
    refine acyclic.of_gains gains fun m put => ?_
    rw [List.mem_singleton.mp put]
    exact apart list
  · refine acyclic.of_children_subset fun q => ?_
    rw [children_place, if_neg (fun here : q = p ∧ t.isParent q => list (here.1 ▸ here.2))]
    exact List.Subset.refl _

theorem insert {new : Insertion} {f : NodeId → List NodeId → List NodeId}
    (perm : ∀ x l, (f x l).Perm (x :: l)) (apart : ∀ x ∈ new.nodes, ¬ t.Within x p) :
    (t.insert p new f).Acyclic := by
  cases new with
  | node x => exact acyclic.place (perm x _) fun _ => apart x (.head _)
  | text s =>
    apply (acyclic.create (.text s)).place (perm _ _)
    -- a node that is made now has nothing below it, and as a text it has no list
    intro list within
    have leaf : (t.create (.text s)).1.children t.nodes.size = [] := by
      rw [children_create]
      exact children_of_size_le (Nat.le_refl _)
    rw [eq_of_within leaf within, isParent_create, if_pos rfl] at list
    cases list

theorem append {new : Insertion} (apart : ∀ x ∈ new.nodes, ¬ t.Within x p) :
    (t.append p new).Acyclic := by
  rcases append_cases t p new with ⟨-, s, last, merged⟩ | inserted
  · rw [merged]
    exact acyclic.of_alike (alike_extendText s)
  · rw [inserted]
    exact acyclic.insert append_perm apart

theorem appendBefore {sibling : NodeId} {new : Insertion}
    (apart : ∀ p ∈ t.parent? sibling, ∀ x ∈ new.nodes, ¬ t.Within x p) :
    (t.appendBefore sibling new).Acyclic := by
  rw [appendBefore_eq]
  split
  · exact acyclic
  · next p link => exact acyclic.insert (fun x => insertBefore_perm x sibling) (apart p link)

theorem appendByParent {element previous : NodeId} {new : Insertion}
    (apart : ∀ x ∈ new.nodes, ¬ t.Within x ((t.parent? element).getD previous)) :
    (t.appendByParent element previous new).Acyclic := by
  unfold Table.appendByParent
  cases link : t.parent? element with
  | none =>
    rw [link] at apart
    exact acyclic.append apart
  | some q =>
    rw [link] at apart
    refine acyclic.appendBefore fun p named => ?_
    rw [link] at named
    cases named
    exact apart

theorem remove : (t.remove x).Acyclic := by
  unfold Table.remove
  split
  · exact acyclic
  · refine acyclic.of_children_subset fun q => ?_
    rw [children_setParent, children_setChildren]
    split
    · exact List.filter_subset_self _
    · exact List.Subset.refl _

theorem reparent {a b : NodeId} (made : t.WellMade) (apart : ∀ x ∈ t.children a, ¬ t.Within x b) :
    (t.reparent a b).Acyclic := by
  have gains : Gains t (t.reparent a b) b (t.children a) := by
    intro q x held
    rw [children_reparent made, List.mem_append] at held
    rcases held with held | held
    · split at held
      · cases held
      · exact .inl held
    · split at held
      · next here => exact .inr ⟨here.1, held⟩
      · cases held
  exact acyclic.of_gains gains apart

theorem perform (made : t.WellMade) {c : Call} (grounded : t.Grounded c) :
    (t.perform c).Acyclic := by
  cases c with
  | makeElement data => exact acyclic.create _
  | makeComment content => exact acyclic.create _
  | append parent new => exact acyclic.append grounded
  | appendBefore sibling new => exact acyclic.appendBefore grounded
  | appendByParent element previous new => exact acyclic.appendByParent grounded
  | remove node => exact acyclic.remove
  | reparent node newParent => exact acyclic.reparent made grounded
  | addAttributes node new => exact acyclic.of_alike (alike_addAttributes new)
  | setDoctype doctype => exact acyclic.of_alike (alike_setDoctype doctype)

end Acyclic

theorem acyclic_after {calls : List Call} (known : Known calls)
    (grounded : ∀ n (h : n < calls.length), (after calls n).Grounded calls[n]) (n : Nat)
    (h : n ≤ calls.length) : (after calls n).Acyclic := by
  induction n with
  | zero => exact acyclic_empty
  | succ n ih =>
    rw [after_succ h]
    exact (ih (Nat.le_of_lt h)).perform (wellMade_after known n (Nat.le_of_lt h)) (grounded n h)

end AuthoredStyle.Dom.Table
