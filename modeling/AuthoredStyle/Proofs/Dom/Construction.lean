import AuthoredStyle.Proofs.Dom.Links

/-!
# Building a document call by call

Whoever builds a document makes nodes and asks for them to be inserted, moved and taken
out. Which calls break the links is said exactly: as long as calls are about nodes that
have been made, the table is consistent behind every call if and only if no call inserts a
node where a list holds it already, or an element where there is no list.

The caller keeps to rules of its own: what it appends has no parent, what it inserts before
a sibling may have one and is then to be moved. The second rule is not met. A node that is
inserted before a sibling is not taken out of the list that it is in.
-/

namespace AuthoredStyle.Dom

/-- The nodes that exist before the insertion. -/
def Insertion.nodes : Insertion → List NodeId
  | .node x => [x]
  | .text _ => []

namespace Table

/-- What can be asked for; calls that only read the table are left out. -/
inductive Call where
  | makeElement (data : Element)
  | makeComment (content : String)
  | append (parent : NodeId) (new : Insertion)
  | appendBefore (sibling : NodeId) (new : Insertion)
  | appendByParent (element previous : NodeId) (new : Insertion)
  | remove (node : NodeId)
  | reparent (node newParent : NodeId)
  | addAttributes (node : NodeId) (new : List (String × String))
  | setDoctype (doctype : Doctype)

/-- The nodes that a call is about. -/
def Call.nodes : Call → List NodeId
  | .makeElement _ | .makeComment _ | .setDoctype _ => []
  | .append parent new => parent :: new.nodes
  | .appendBefore sibling new => sibling :: new.nodes
  | .appendByParent element previous new => element :: previous :: new.nodes
  | .remove node | .addAttributes node _ => [node]
  | .reparent node newParent => [node, newParent]

def perform (t : Table) : Call → Table
  | .makeElement data => (t.create (.element data)).1
  | .makeComment content => (t.create (.comment content)).1
  | .append parent new => t.append parent new
  | .appendBefore sibling new => t.appendBefore sibling new
  | .appendByParent element previous new => t.appendByParent element previous new
  | .remove node => t.remove node
  | .reparent node newParent => t.reparent node newParent
  | .addAttributes node new => t.addAttributes node new
  | .setDoctype doctype => t.setDoctype doctype

/-- The table behind the first calls, from the table that holds the document alone. -/
def after (calls : List Call) (n : Nat) : Table := (calls.take n).foldl perform {}

/-- All nodes that calls are about have been made before. -/
def Known (calls : List Call) : Prop :=
  ∀ n (h : n < calls.length), ∀ x ∈ calls[n].nodes, x < (after calls n).nodes.size

instance (calls : List Call) : Decidable (Known calls) :=
  inferInstanceAs (Decidable (∀ n (h : n < calls.length), ∀ x ∈ calls[n].nodes, _))

/-- A node is inserted where a list holds it already, or an element where there is no list. -/
def tangledBy (t : Table) : Call → Bool
  | .append parent new => new.nodes.any (t.tangles · parent)
  | .appendBefore sibling new =>
    (t.parent? sibling).any fun parent => new.nodes.any (t.tangles · parent)
  | .appendByParent element previous new =>
    new.nodes.any (t.tangles · ((t.parent? element).getD previous))
  | .reparent node newParent => !t.isParent newParent && (t.children node).any t.isElement
  | _ => false

variable {t : Table}

/-! ## One call -/

section Insert

variable {p : NodeId} {new : Insertion} {f : NodeId → List NodeId → List NodeId}

/-- A node or text under a parent, somewhere in its list. -/
def insert (t : Table) (p : NodeId) (new : Insertion) (f : NodeId → List NodeId → List NodeId) :
    Table :=
  let (t, x) := t.realize new
  t.place x p (f x)

variable (perm : ∀ x l, (f x l).Perm (x :: l)) (known : ∀ x ∈ new.nodes, x < t.nodes.size)

include perm known

theorem WellMade.insert (made : t.WellMade) : (t.insert p new f).WellMade := by
  cases new with
  | node x => exact made.place (perm x _) (known x (.head _))
  | text s =>
    apply (made.create (.text s)).place (perm _ _)
    rw [size_create]
    exact Nat.lt_succ_self _

theorem consistent_insert_iff (made : t.WellMade) (ok : t.Consistent) :
    (t.insert p new f).Consistent ↔ new.nodes.any (t.tangles · p) = false := by
  cases new with
  | node x =>
    rw [Insertion.nodes, List.any_cons, List.any_nil, Bool.or_false]
    exact consistent_place_iff (perm x _) made (known x (.head _)) ok
  | text s =>
    -- a text that is made now is in no list, and it is no element
    have made' := made.create (.text s)
    have ok' := ok.of_moves (moves_create made ok (.text s))
    have inside : t.nodes.size < (t.create (.text s)).1.nodes.size := by
      rw [size_create]
      exact Nat.lt_succ_self _
    have loose : (t.create (.text s)).1.isHeld t.nodes.size = false := by
      rw [Bool.eq_false_iff, ne_eq, isHeld_iff]
      rintro ⟨q, held⟩
      rw [children_create] at held
      exact made.not_isHeld held
    have other : (t.create (.text s)).1.isElement t.nodes.size = false := by
      rw [isElement_create, if_pos rfl]
      rfl
    have smooth : (t.create (.text s)).1.tangles t.nodes.size p = false := by
      rw [tangles, loose, other, ite_self]
    exact iff_of_true ((consistent_place_iff (perm _ _) made' inside ok').mpr smooth) rfl

end Insert

theorem append_cases (t : Table) (p : NodeId) (new : Insertion) :
    (new.nodes = [] ∧ ∃ s last, t.append p new = t.extendText last s) ∨
      t.append p new = t.insert p new fun x l => l ++ [x] := by
  unfold append
  split
  · next s last _ => exact .inl ⟨rfl, s, last, rfl⟩
  · exact .inr rfl

theorem appendBefore_eq (t : Table) (sibling : NodeId) (new : Insertion) :
    t.appendBefore sibling new =
      match t.parent? sibling with
      | none => t
      | some p => t.insert p new fun x => insertBefore x sibling := rfl

theorem append_perm (x : NodeId) (l : List NodeId) : (l ++ [x]).Perm (x :: l) :=
  List.perm_append_singleton x l

section Append

variable {p sibling : NodeId} {new : Insertion} (known : ∀ x ∈ new.nodes, x < t.nodes.size)

include known

theorem WellMade.append (made : t.WellMade) : (t.append p new).WellMade := by
  rcases append_cases t p new with ⟨-, s, last, merged⟩ | inserted
  · rw [merged]
    exact (alike_extendText s).wellMade made
  · rw [inserted]
    exact made.insert append_perm known

theorem consistent_append_iff (made : t.WellMade) (ok : t.Consistent) :
    (t.append p new).Consistent ↔ new.nodes.any (t.tangles · p) = false := by
  rcases append_cases t p new with ⟨text, s, last, merged⟩ | inserted
  · rw [merged, text]
    exact iff_of_true (ok.of_moves ((alike_extendText s).moves ok)) rfl
  · rw [inserted]
    exact consistent_insert_iff append_perm known made ok

theorem WellMade.appendBefore (made : t.WellMade) : (t.appendBefore sibling new).WellMade := by
  rw [appendBefore_eq]
  split
  · exact made
  · exact made.insert (fun x => insertBefore_perm x sibling) known

theorem consistent_appendBefore_iff (made : t.WellMade) (ok : t.Consistent) :
    (t.appendBefore sibling new).Consistent ↔
      ((t.parent? sibling).any fun p => new.nodes.any (t.tangles · p)) = false := by
  rw [appendBefore_eq]
  cases t.parent? sibling with
  | none => exact iff_of_true ok rfl
  | some p => exact consistent_insert_iff (fun x => insertBefore_perm x sibling) known made ok

theorem WellMade.appendByParent (made : t.WellMade) :
    (t.appendByParent sibling p new).WellMade := by
  unfold Table.appendByParent
  split
  · exact made.appendBefore known
  · exact made.append known

theorem consistent_appendByParent_iff (made : t.WellMade) (ok : t.Consistent) :
    (t.appendByParent sibling p new).Consistent ↔
      new.nodes.any (t.tangles · ((t.parent? sibling).getD p)) = false := by
  have before : (t.appendBefore sibling new).Consistent ↔ _ :=
    consistent_appendBefore_iff known made ok
  unfold appendByParent
  cases link : t.parent? sibling with
  | none => exact consistent_append_iff known made ok
  | some q =>
    rw [link] at before
    exact before

end Append

theorem WellMade.perform (made : t.WellMade) {c : Call} (known : ∀ x ∈ c.nodes, x < t.nodes.size) :
    (t.perform c).WellMade := by
  cases c with
  | makeElement data => exact made.create _
  | makeComment content => exact made.create _
  | append parent new => exact made.append fun x goes => known x (.tail _ goes)
  | appendBefore sibling new =>
    exact made.appendBefore fun x goes => known x (.tail _ goes)
  | appendByParent element previous new =>
    exact made.appendByParent fun x goes => known x (.tail _ (.tail _ goes))
  | remove node => exact made.remove
  | reparent node newParent => exact made.reparent
  | addAttributes node new => exact (alike_addAttributes new).wellMade made
  | setDoctype doctype => exact (alike_setDoctype doctype).wellMade made

/-- Behind one call links agree again exactly if the call tangles nothing. -/
theorem consistent_perform_iff (made : t.WellMade) (ok : t.Consistent) {c : Call}
    (known : ∀ x ∈ c.nodes, x < t.nodes.size) :
    (t.perform c).Consistent ↔ t.tangledBy c = false := by
  cases c with
  | makeElement data => exact iff_of_true (ok.of_moves (moves_create made ok _)) rfl
  | makeComment content => exact iff_of_true (ok.of_moves (moves_create made ok _)) rfl
  | append parent new =>
    exact consistent_append_iff (fun x goes => known x (.tail _ goes)) made ok
  | appendBefore sibling new =>
    exact consistent_appendBefore_iff (fun x goes => known x (.tail _ goes)) made ok
  | appendByParent element previous new =>
    exact consistent_appendByParent_iff (fun x goes => known x (.tail _ (.tail _ goes))) made ok
  | remove node => exact iff_of_true (ok.remove made) rfl
  | reparent node newParent =>
    simpa [perform, tangledBy, or_iff_not_imp_left] using consistent_reparent_iff made ok
  | addAttributes node new =>
    exact iff_of_true (ok.of_moves ((alike_addAttributes new).moves ok)) rfl
  | setDoctype doctype =>
    exact iff_of_true (ok.of_moves ((alike_setDoctype doctype).moves ok)) rfl

/-! ## All calls -/

theorem after_succ {calls : List Call} {n : Nat} (h : n < calls.length) :
    after calls (n + 1) = (after calls n).perform calls[n] := by
  rw [after, List.take_succ_eq_append_getElem h, List.foldl_concat, after]

theorem wellMade_after {calls : List Call} (known : Known calls) (n : Nat) (h : n ≤ calls.length) :
    (after calls n).WellMade := by
  induction n with
  | zero => exact wellMade_empty
  | succ n ih =>
    rw [after_succ h]
    exact (ih (Nat.le_of_lt h)).perform (known n h)

/-- As long as calls are about nodes that have been made, links agree behind every call if
and only if no call inserts a node where a list holds it already, or an element where there
is no list. Nothing else that the caller keeps to matters. -/
theorem consistent_after_iff (calls : List Call) (known : Known calls) :
    (∀ n ≤ calls.length, (after calls n).Consistent) ↔
      ∀ n (h : n < calls.length), (after calls n).tangledBy calls[n] = false := by
  constructor
  · intro ok n h
    have step := consistent_perform_iff (wellMade_after known n (Nat.le_of_lt h))
      (ok n (Nat.le_of_lt h)) (known n h)
    apply step.mp
    rw [← after_succ h]
    exact ok (n + 1) h
  · intro smooth n
    induction n with
    | zero => exact fun _ => consistent_empty
    | succ n ih =>
      intro h
      have made := wellMade_after known n (Nat.le_of_lt h)
      rw [after_succ h, consistent_perform_iff made (ih (Nat.le_of_lt h)) (known n h)]
      exact smooth n h

/-- A division goes in front of a table, is taken out again and goes into the table. -/
def fostered : List Call :=
  [.makeElement { name := "body" }, .append 0 (.node 1),
    .makeElement { name := "table" }, .append 1 (.node 2),
    .makeElement { name := "div" }, .appendBefore 2 (.node 3), .remove 3, .append 2 (.node 3)]

theorem consistent_after_iff_of_fostered :
    Known fostered ∧ ∀ n ≤ fostered.length, (after fostered n).Consistent :=
  have known : Known fostered := by decide
  ⟨known, (consistent_after_iff fostered known).mpr (by decide)⟩

/-! ## What callers keep to -/

/-- A node itself, or a node somewhere below it. -/
inductive Within (t : Table) (x : NodeId) : NodeId → Prop
  | self : Within t x x
  | child {p y : NodeId} : Within t x p → y ∈ t.children p → Within t x y

/-- What is appended has no parent, and nothing goes below itself. -/
def Appendable (t : Table) (p : NodeId) (new : Insertion) : Prop :=
  ∀ x ∈ new.nodes, t.isHeld x = false ∧ ¬ t.Within x p

/-- The sibling has a parent and is not text, and nothing goes below itself. What is
inserted may have a parent. -/
def Insertable (t : Table) (sibling : NodeId) (new : Insertion) : Prop :=
  t.text? sibling = none ∧ ∃ p, sibling ∈ t.children p ∧ ∀ x ∈ new.nodes, ¬ t.Within x p

def Allowed (t : Table) : Call → Prop
  | .append parent new => t.Appendable parent new
  | .appendBefore sibling new => t.Insertable sibling new
  | .appendByParent element previous new =>
    if t.isHeld element then t.Insertable element new else t.Appendable previous new
  | .reparent node newParent => ∀ x ∈ t.children node, ¬ t.Within x newParent
  | _ => True

/-- Calls as a caller makes them who keeps to the rules. -/
def Follows (calls : List Call) : Prop :=
  Known calls ∧ ∀ n (h : n < calls.length), (after calls n).Allowed calls[n]

theorem eq_of_within {p x : NodeId} (leaf : t.children x = []) (within : t.Within x p) : p = x := by
  induction within with
  | self => rfl
  | child _ held ih =>
    rw [ih, leaf] at held
    exact absurd held List.not_mem_nil

theorem appendable_leaf {p x : NodeId} (loose : t.isHeld x = false) (leaf : t.children x = [])
    (other : p ≠ x) : t.Appendable p (.node x) := by
  intro y goes
  rw [List.mem_singleton.mp goes]
  exact ⟨loose, fun within => other (eq_of_within leaf within)⟩

/-- A division in a table goes in front of the table. -/
def movedOut : List Call :=
  [.makeElement { name := "body" }, .append 0 (.node 1),
    .makeElement { name := "table" }, .append 1 (.node 2),
    .makeElement { name := "div" }, .append 2 (.node 3), .appendBefore 2 (.node 3)]

theorem follows_movedOut : Follows movedOut := by
  refine ⟨by decide, ?_⟩
  rintro (_ | _ | _ | _ | _ | _ | _ | n) h
  · trivial
  · exact appendable_leaf (by decide) (by decide) (by decide)
  · trivial
  · exact appendable_leaf (by decide) (by decide) (by decide)
  · trivial
  · exact appendable_leaf (by decide) (by decide) (by decide)
  · refine ⟨by decide, 1, by decide, ?_⟩
    intro x goes within
    rw [List.mem_singleton.mp goes] at within
    exact absurd (eq_of_within (by decide) within) (by decide)
  · exact absurd h (by simp [movedOut])

/-- A caller who keeps to the rules does not get consistent tables: the division is listed
in front of the table and in it. -/
theorem moved_node_listed_twice :
    ¬ ∀ calls, Follows calls → ∀ n ≤ calls.length, (after calls n).Consistent := by
  intro claim
  have ok := claim movedOut follows_movedOut 7 (by decide)
  have same : (1 : NodeId) = 2 := ok.oneList (x := 3) (by decide) (by decide)
  exact absurd same (by decide)

end Table

end AuthoredStyle.Dom
