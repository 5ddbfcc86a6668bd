import AuthoredStyle.Proofs.Dom.Acyclic

/-!
# Text nodes

Whoever builds a document is told of the elements and comments that are made, not of texts.
So no call is about a text, and a text leaves the list that it was made in only with all its
siblings. It is then listed once at most, even where elements have been listed twice.
-/

namespace AuthoredStyle.Dom.Table

variable {t t' : Table} {p x y : NodeId}

/-- No two places in lists hold the node. -/
structure Once (t : Table) (y : NodeId) : Prop where
  single : ∀ p, (t.children p).count y ≤ 1
  oneList : ∀ {p q}, y ∈ t.children p → y ∈ t.children q → p = q

theorem once_of_loose (loose : ∀ p, y ∉ t.children p) : t.Once y where
  single p := by
    rw [List.count_eq_zero.mpr (loose p)]
    exact Nat.zero_le 1
  oneList held := absurd held (loose _)

theorem Once.of_count_le (once : t.Once y)
    (less : ∀ p, (t'.children p).count y ≤ (t.children p).count y) : t'.Once y where
  single p := (less p).trans (once.single p)
  oneList {p q} inP inQ := by
    have before {p : NodeId} (held : y ∈ t'.children p) : y ∈ t.children p :=
      List.count_pos_iff.mp ((List.count_pos_iff.mpr held).trans_le (less p))
    exact once.oneList (before inP) (before inQ)

section Place

variable {f : List NodeId → List NodeId} (perm : (f (t.children p)).Perm (x :: t.children p))

include perm

theorem Once.place (once : t.Once y) (other : y ≠ x) : (t.place x p f).Once y := by
  refine once.of_count_le fun q => ?_
  rw [children_place]
  split
  · next here =>
    rw [here.1, perm.count_eq, List.count_cons_of_ne other.symm]
  · exact Nat.le_refl _

theorem once_place (loose : ∀ q, x ∉ t.children q) : (t.place x p f).Once x where
  single q := by
    rw [children_place]
    split
    · next here =>
      rw [here.1, perm.count_eq, List.count_cons_self, List.count_eq_zero.mpr (loose p)]
    · rw [List.count_eq_zero.mpr (loose q)]
      exact Nat.zero_le 1
  oneList := by
    have only {q : NodeId} (held : x ∈ (t.place x p f).children q) : q = p := by
      by_contra elsewhere
      rw [children_place, if_neg (fun here => elsewhere here.1)] at held
      exact loose q held
    intro a b inA inB
    rw [only inA, only inB]

end Place

theorem Once.reparent {a b : NodeId} (once : t.Once y) (made : t.WellMade) :
    (t.reparent a b).Once y := by
  by_cases goes : y ∈ t.children a
  · -- the lists that stay do not hold the node, so it is in the moved part alone
    have gone (p : NodeId) : y ∉ if p = a then [] else t.children p := by
      split
      · exact List.not_mem_nil
      · next left => exact fun held => left (once.oneList held goes)
    constructor
    · intro p
      rw [children_reparent made, List.count_append, List.count_eq_zero.mpr (gone p), Nat.zero_add]
      split
      · exact once.single a
      · exact Nat.zero_le 1
    · have only {p : NodeId} (held : y ∈ (t.reparent a b).children p) : p = b := by
        rw [children_reparent made, List.mem_append, or_iff_right (gone p)] at held
        split at held
        · next here => exact here.1
        · cases held
      intro p q inP inQ
      rw [only inP, only inQ]
  · refine once.of_count_le fun p => ?_
    rw [children_reparent made, List.count_append]
    have none : (if p = b ∧ t.isParent p then t.children a else []).count y = 0 := by
      split
      · exact List.count_eq_zero.mpr goes
      · rfl
    rw [none, Nat.add_zero]
    split
    · exact Nat.zero_le _
    · exact Nat.le_refl _

/-! ## Calls -/

/-- Every text is listed once at most. -/
def TextsOnce (t : Table) : Prop := ∀ y, (t.text? y).isSome → t.Once y

theorem text?_congr (same : t'.content? y = t.content? y) : t'.text? y = t.text? y := by
  rw [text?, same, text?]

theorem textsOnce_empty : ({} : Table).TextsOnce := by
  refine fun y _ => once_of_loose fun p held => ?_
  rw [children, node?_empty] at held
  split at held <;> simp at held

namespace TextsOnce

variable (texts : t.TextsOnce)

include texts

theorem of_children_eq (same : ∀ p, t'.children p = t.children p)
    (old : ∀ y, (t'.text? y).isSome → (t.text? y).isSome ∨ ∀ p, y ∉ t.children p) :
    t'.TextsOnce := by
  intro y text
  rcases old y text with text | loose
  · refine (texts y text).of_count_le fun p => ?_
    rw [same]
  · refine once_of_loose fun p => ?_
    rw [same]
    exact loose p

theorem create (made : t.WellMade) (c : Content) : (t.create c).1.TextsOnce := by
  refine texts.of_children_eq (children_create c) fun y text => ?_
  by_cases new : y = t.nodes.size
  · exact .inr fun p => new ▸ made.not_isHeld
  · rw [text?_congr (t := t) (by rw [content?_create, if_neg new])] at text
    exact .inl text

theorem place {f : List NodeId → List NodeId} (perm : (f (t.children p)).Perm (x :: t.children p))
    (fits : (t.text? x).isSome → ∀ q, x ∉ t.children q) : (t.place x p f).TextsOnce := by
  intro y text
  rw [text?_congr (t := t) (by rw [Table.place, content?_setChildren, content?_setParent])] at text
  by_cases same : y = x
  · subst same
    exact once_place perm (fits text)
  · exact (texts y text).place perm same

theorem insert {new : Insertion} {f : NodeId → List NodeId → List NodeId} (made : t.WellMade)
    (perm : ∀ x l, (f x l).Perm (x :: l)) (textless : ∀ x ∈ new.nodes, t.text? x = none) :
    (t.insert p new f).TextsOnce := by
  cases new with
  | node x =>
    refine texts.place (perm x _) fun text => ?_
    rw [textless x (.head _)] at text
    cases text
  | text s =>
    refine (texts.create made (.text s)).place (perm _ _) fun _ q => ?_
    rw [children_create]
    exact made.not_isHeld

theorem append {new : Insertion} (made : t.WellMade)
    (textless : ∀ x ∈ new.nodes, t.text? x = none) : (t.append p new).TextsOnce := by
  rcases append_cases t p new with ⟨-, s, last, merged⟩ | inserted
  · rw [merged]
    refine texts.of_children_eq (alike_extendText s).children fun y text => .inl ?_
    refine isSome_text?_modify y (fun n u => ?_) text
    split
    · next old content => exact fun _ => ⟨old, content⟩
    · exact fun content => ⟨u, content⟩
  · rw [inserted]
    exact texts.insert made append_perm textless

theorem appendBefore {sibling : NodeId} {new : Insertion} (made : t.WellMade)
    (textless : ∀ x ∈ new.nodes, t.text? x = none) : (t.appendBefore sibling new).TextsOnce := by
  rw [appendBefore_eq]
  split
  · exact texts
  · exact texts.insert made (fun x => insertBefore_perm x sibling) textless

theorem appendByParent {element previous : NodeId} {new : Insertion} (made : t.WellMade)
    (textless : ∀ x ∈ new.nodes, t.text? x = none) :
    (t.appendByParent element previous new).TextsOnce := by
  unfold Table.appendByParent
  split
  · exact texts.appendBefore made textless
  · exact texts.append made textless

theorem remove : (t.remove x).TextsOnce := by
  unfold Table.remove
  split
  · exact texts
  · intro y text
    rw [text?_congr (t := t) (by rw [content?_setParent, content?_setChildren])] at text
    refine (texts y text).of_count_le fun p => ?_
    rw [children_setParent, children_setChildren]
    split
    · exact List.filter_sublist.count_le y
    · exact Nat.le_refl _

theorem reparent {a b : NodeId} (made : t.WellMade) : (t.reparent a b).TextsOnce := by
  intro y text
  rw [text?_congr (t := t) (by rw [reparent_eq, content?_setChildren, content?_setParents,
    content?_setChildren])] at text
  exact (texts y text).reparent made

theorem perform (made : t.WellMade) {c : Call} (textless : ∀ x ∈ c.nodes, t.text? x = none) :
    (t.perform c).TextsOnce := by
  cases c with
  | makeElement data => exact texts.create made _
  | makeComment content => exact texts.create made _
  | append parent new => exact texts.append made fun x goes => textless x (.tail _ goes)
  | appendBefore sibling new =>
    exact texts.appendBefore made fun x goes => textless x (.tail _ goes)
  | appendByParent element previous new =>
    exact texts.appendByParent made fun x goes => textless x (.tail _ (.tail _ goes))
  | remove node => exact texts.remove
  | reparent node newParent => exact texts.reparent made
  | addAttributes node new =>
    refine texts.of_children_eq (alike_addAttributes new).children fun y text => .inl ?_
    refine isSome_text?_modify y (fun n u => ?_) text
    split
    · exact nofun
    · exact fun content => ⟨u, content⟩
  | setDoctype doctype => exact texts.of_children_eq (fun _ => rfl) fun _ text => .inl text

end TextsOnce

/-! ## Tables that can be built -/

/-- Calls are about nodes that have been made, none of which is a text, and put nothing below
itself. -/
structure Handled (calls : List Call) : Prop where
  known : Known calls
  textless : ∀ n (h : n < calls.length), ∀ x ∈ calls[n].nodes, (after calls n).text? x = none
  grounded : ∀ n (h : n < calls.length), (after calls n).Grounded calls[n]

theorem Handled.textsOnce {calls : List Call} (handled : Handled calls) (n : Nat)
    (h : n ≤ calls.length) : (after calls n).TextsOnce := by
  induction n with
  | zero => exact textsOnce_empty
  | succ n ih =>
    rw [after_succ h]
    exact (ih (Nat.le_of_lt h)).perform (wellMade_after handled.known n (Nat.le_of_lt h))
      (handled.textless n h)

/-- A table at some point of a building. -/
def Reachable (t : Table) : Prop :=
  ∃ calls, Handled calls ∧ ∃ n ≤ calls.length, t = after calls n

theorem Reachable.wellMade (reachable : t.Reachable) : t.WellMade := by
  obtain ⟨calls, handled, n, h, rfl⟩ := reachable
  exact wellMade_after handled.known n h

theorem Reachable.acyclic (reachable : t.Reachable) : t.Acyclic := by
  obtain ⟨calls, handled, n, h, rfl⟩ := reachable
  exact acyclic_after handled.known handled.grounded n h

theorem Reachable.textsOnce (reachable : t.Reachable) : t.TextsOnce := by
  obtain ⟨calls, handled, n, h, rfl⟩ := reachable
  exact handled.textsOnce n h

end AuthoredStyle.Dom.Table
