import AuthoredStyle.Proofs.Dom.TextNode

/-!
# Taking a node out

A node that is taken out should leave every list and lose its link, with all that is below it,
and nothing else should change. It is looked for in one list, the one that its link names. So
this comes out exactly where the link names the nodes that list it, and these alone. Only
elements have a link: a comment that stands in a list stays there, and so does an element in a
list that its link does not name.
-/

namespace AuthoredStyle.Dom.Table

variable {t : Table} {x : NodeId}

/-! ## Links that are right -/

/-- The link of a node names the nodes that list it, and these alone. -/
def Linked (t : Table) (x : NodeId) : Prop := ∀ p, t.parent? x = some p ↔ x ∈ t.children p

theorem linked_iff : t.Linked x ↔
    (∀ p ∈ t.parent? x, x ∈ t.children p) ∧
      ∀ p < t.nodes.size, x ∈ t.children p → t.parent? x = some p :=
  ⟨fun linked => ⟨fun p => (linked p).mp, fun p _ => (linked p).mpr⟩,
    fun ⟨names, listed⟩ p => ⟨names p, fun held => listed p (lt_size_of_mem_children held) held⟩⟩

instance : Decidable (t.Linked x) := decidable_of_iff _ linked_iff.symm

theorem WellMade.linked_iff_of_not_isElement (made : t.WellMade) (other : t.isElement x = false) :
    t.Linked x ↔ ∀ p, x ∉ t.children p := by
  simp [Linked, made.bare x other]

/-! ## What is left -/

theorem remove_of_unlinked (unlinked : t.parent? x = none) : t.remove x = t := by
  rw [remove, unlinked]

theorem WellMade.isElement_of_link (made : t.WellMade) {p : NodeId} (link : t.parent? x = some p) :
    t.isElement x := by
  by_contra other
  rw [made.bare x (Bool.eq_false_iff.mpr other)] at link
  cases link

theorem WellMade.children_remove (made : t.WellMade) (q : NodeId) :
    (t.remove x).children q =
      if t.parent? x = some q then (t.children q).filter (· ≠ x) else t.children q := by
  cases link : t.parent? x with
  | none => rw [remove_of_unlinked link, if_neg nofun]
  | some p =>
    rw [Table.remove, link]
    dsimp only
    rw [children_setParent, children_setChildren]
    by_cases here : q = p
    · rw [here, if_pos rfl]
      by_cases list : t.isParent p
      · rw [if_pos ⟨rfl, list⟩]
      · rw [made.barren p (Bool.eq_false_iff.mpr list), List.filter_nil, ite_self]
    · rw [if_neg (fun both => here both.1), if_neg (fun same => here (Option.some.inj same).symm)]

theorem WellMade.parent?_remove (made : t.WellMade) (y : NodeId) :
    (t.remove x).parent? y = if y = x then none else t.parent? y := by
  cases link : t.parent? x with
  | none =>
    rw [remove_of_unlinked link]
    split
    · next same => rw [same, link]
    · rfl
  | some p =>
    rw [Table.remove, link]
    dsimp only
    rw [parent?_setParent, isElement_setChildren, parent?_setChildren]
    by_cases same : y = x
    · rw [if_pos ⟨same, same ▸ made.isElement_of_link link⟩, if_pos same]
    · rw [if_neg (fun both => same both.1), if_neg same]

theorem content?_remove (y : NodeId) : (t.remove x).content? y = t.content? y := by
  rw [remove]
  split
  · rfl
  · rw [content?_setParent, content?_setChildren]

/-! ## Taken out and nothing else -/

/-- The node is in no list and has no link, what is below it is as it was, the other lists are
as they were without it, and other links are as they were. A node that is in no list is left
alone. -/
structure Detaches (t t' : Table) (x : NodeId) : Prop where
  unlisted : ∀ p, x ∉ t'.children p
  unlinked : t'.parent? x = none
  below : ∀ y, t.Within x y → t'.content? y = t.content? y ∧ t'.children y = t.children y
  lists : ∀ p ≠ x, t'.children p = (t.children p).filter (· ≠ x)
  links : ∀ y ≠ x, t'.parent? y = t.parent? y
  idle : (∀ p, x ∉ t.children p) → t' = t

theorem Linked.detaches (linked : t.Linked x) (made : t.WellMade) (acyclic : t.Acyclic) :
    Detaches t (t.remove x) x where
  unlisted p := by
    rw [made.children_remove]
    split
    · simp
    · next elsewhere => exact fun held => elsewhere ((linked p).mpr held)
  unlinked := by rw [made.parent?_remove, if_pos rfl]
  below y within := by
    refine ⟨content?_remove y, ?_⟩
    rw [made.children_remove, if_neg]
    -- the list that changes is that of a node above
    exact fun link => acyclic y x ((linked y).mp link) within
  lists p _ := by
    rw [made.children_remove]
    split
    · rfl
    · next elsewhere =>
      rw [eq_comm, List.filter_eq_self]
      rintro y held
      simp only [ne_eq, decide_not, Bool.not_eq_true', decide_eq_false_iff_not]
      rintro rfl
      exact elsewhere ((linked p).mpr held)
  links y other := by rw [made.parent?_remove, if_neg other]
  idle loose := by
    apply remove_of_unlinked
    by_contra some
    obtain ⟨p, link⟩ := Option.ne_none_iff_exists'.mp some
    exact loose p ((linked p).mp link)

theorem Detaches.linked (detaches : Detaches t (t.remove x) x) (made : t.WellMade) :
    t.Linked x := by
  have names (p : NodeId) (held : x ∈ t.children p) : t.parent? x = some p := by
    by_contra elsewhere
    apply detaches.unlisted p
    rw [made.children_remove, if_neg elsewhere]
    exact held
  refine fun p => ⟨fun link => ?_, names p⟩
  by_contra absent
  have loose (q : NodeId) : x ∉ t.children q := by
    intro held
    obtain rfl : p = q := Option.some.inj (link.symm.trans (names q held))
    exact absent held
  have unlinked := detaches.unlinked
  rw [detaches.idle loose, link] at unlinked
  cases unlinked

/-- In every table that can be built a node is taken out exactly where its link names the nodes
that list it, and these alone. So a node other than an element is taken out only if nothing
lists it, and every element is where links and lists agree. -/
theorem remove_detaches_iff (t : Table) (reachable : t.Reachable) (x : NodeId) :
    (Detaches t (t.remove x) x ↔ t.Linked x) ∧
      (t.isElement x = false → (Detaches t (t.remove x) x ↔ ∀ p, x ∉ t.children p)) ∧
      (t.Consistent → t.isElement x → Detaches t (t.remove x) x) := by
  have made := reachable.wellMade
  have exact' : Detaches t (t.remove x) x ↔ t.Linked x :=
    ⟨fun detaches => detaches.linked made, fun linked => linked.detaches made reachable.acyclic⟩
  refine ⟨exact', fun other => ?_, fun ok element => ?_⟩
  · rw [exact', made.linked_iff_of_not_isElement other]
  · exact exact'.mpr (ok.linked x element)

/-- A body that holds a comment and a table, and a division that has been put in front of the
table it was in. -/
def scattered : List Call :=
  [.makeElement { name := "body" }, .append 0 (.node 1),
    .makeComment "c", .append 1 (.node 2),
    .makeElement { name := "table" }, .append 1 (.node 3),
    .makeElement { name := "div" }, .append 3 (.node 4), .appendBefore 3 (.node 4)]

theorem not_within_leaf {p : NodeId} {new : Insertion} (leaf : ∀ y ∈ new.nodes, t.children y = [])
    (other : ∀ y ∈ new.nodes, p ≠ y) : ∀ y ∈ new.nodes, ¬ t.Within y p :=
  fun y goes within => other y goes (eq_of_within (leaf y goes) within)

theorem handled_scattered : Handled scattered where
  known := by decide
  textless := by decide
  grounded := by
    rintro (_ | _ | _ | _ | _ | _ | _ | _ | _ | n) h
    · trivial
    · exact not_within_leaf (by decide) (by decide)
    · trivial
    · exact not_within_leaf (by decide) (by decide)
    · trivial
    · exact not_within_leaf (by decide) (by decide)
    · trivial
    · exact not_within_leaf (by decide) (by decide)
    · rintro p link
      obtain rfl : 1 = p := Option.some.inj link
      exact not_within_leaf (by decide) (by decide)
    · exact absurd h (by simp [scattered])

/-- The table is taken out; the comment and the division are not. -/
theorem remove_detaches_iff_of_scattered :
    Reachable (after scattered 9) ∧
      Detaches (after scattered 9) ((after scattered 9).remove 3) 3 ∧
      ¬ Detaches (after scattered 9) ((after scattered 9).remove 2) 2 ∧
      ¬ Detaches (after scattered 9) ((after scattered 9).remove 4) 4 :=
  have reachable : Reachable (after scattered 9) :=
    ⟨scattered, handled_scattered, 9, by decide, rfl⟩
  ⟨reachable, (remove_detaches_iff _ reachable 3).1.mpr (by decide),
    mt (remove_detaches_iff _ reachable 2).1.mp (by decide),
    mt (remove_detaches_iff _ reachable 4).1.mp (by decide)⟩

/-- A document that holds a comment. -/
def remarked : List Call := [.makeComment "c", .append 0 (.node 1)]

theorem follows_remarked : Follows remarked := by
  refine ⟨by decide, ?_⟩
  rintro (_ | _ | n) h
  · trivial
  · exact appendable_leaf (by decide) (by decide) (by decide)
  · exact absurd h (by simp [remarked])

theorem handled_remarked : Handled remarked where
  known := by decide
  textless := by decide
  grounded := by
    rintro (_ | _ | n) h
    · trivial
    · exact not_within_leaf (by decide) (by decide)
    · exact absurd h (by simp [remarked])

/-- A caller who keeps to the rules cannot take a comment out of the document. -/
theorem comment_stays_listed :
    ¬ ∀ calls, Follows calls → Handled calls → ∀ x < (after calls calls.length).nodes.size,
      (after calls calls.length).text? x = none →
        Detaches (after calls calls.length) ((after calls calls.length).remove x) x := by
  intro claim
  have detaches := claim remarked follows_remarked handled_remarked 1 (by decide) (by decide)
  exact absurd (detaches.unlisted 0) (by decide)

end AuthoredStyle.Dom.Table
