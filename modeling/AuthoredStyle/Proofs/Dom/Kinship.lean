import AuthoredStyle.Dom.Tree
import AuthoredStyle.Proofs.Walk

/-!
# Kinship of places

Ancestors are reached by parent links and preceding siblings by links to the
sibling right before. Both lists that a selector looks at are the walks along
these links. In a tree all links lead to places of the tree again, and every
place whose outermost ancestor has no siblings before it stands in some tree.
-/

namespace AuthoredStyle.Dom

namespace Place

/-- The element sibling right before. -/
def previous? (p : Place) : Option Place :=
  match p.level.before with
  | [] => none
  | e :: before => some ⟨⟨e, before⟩, p.above⟩

/-- The first place is a proper ancestor of the second. -/
def Ancestor (q p : Place) : Prop := Reached parent? p q

/-- The first place is an element sibling somewhere before the second. -/
def Precedes (q p : Place) : Prop := Reached previous? p q

theorem isWalk_ancestors : IsWalk parent? ancestors where
  stop := by
    rintro ⟨level, above⟩ root
    cases above with
    | nil => rfl
    | cons l ls => simp [parent?] at root
  step := by
    rintro ⟨level, above⟩ q link
    cases above with
    | nil => simp [parent?] at link
    | cons l ls =>
      cases link
      rfl

theorem isWalk_previousSiblings : IsWalk previous? previousSiblings where
  stop := by
    rintro ⟨⟨e, before⟩, above⟩ first
    cases before with
    | nil => rfl
    | cons b bs => simp [previous?] at first
  step := by
    rintro ⟨⟨e, before⟩, above⟩ q link
    cases before with
    | nil => simp [previous?] at link
    | cons b bs =>
      cases link
      rfl

theorem previousSiblings_take_one (p : Place) : p.previousSiblings.take 1 = p.previous?.toList := by
  cases link : p.previous? with
  | none => simp [isWalk_previousSiblings.stop link]
  | some q => simp [isWalk_previousSiblings.step link]

/-- Siblings share their ancestors. -/
theorem Precedes.above_eq {q p : Place} (h : q.Precedes p) : q.above = p.above := by
  have step : ∀ {a b : Place}, a.previous? = some b → b.above = a.above := by
    rintro ⟨⟨e, before⟩, above⟩ b link
    cases before with
    | nil => simp [previous?] at link
    | cons c cs =>
      cases link
      rfl
  induction h with
  | single link => exact step link
  | tail _ link ih => exact (step link).trans ih

theorem Precedes.parent?_eq {q p : Place} (h : q.Precedes p) : q.parent? = p.parent? := by
  simp only [parent?, h.above_eq]

theorem Precedes.ancestor_iff {q p a : Place} (h : q.Precedes p) :
    a.Ancestor q ↔ a.Ancestor p := by
  have same : q.ancestors = p.ancestors := by simp only [ancestors, h.above_eq]
  rw [Ancestor, Ancestor, ← isWalk_ancestors.mem_iff, ← isWalk_ancestors.mem_iff, same]

end Place

/-! ## Places of one tree -/

/-- Links out of some places stay among them, or lead to the place that they
hang under or to the sibling that they follow. -/
def Closed (above : List Level) (before : List Element) (ps : List Place) : Prop :=
  ∀ p ∈ ps, ∀ q,
    (p.parent? = some q → q ∈ ps ∨ above = q.level :: q.above) ∧
      (p.previous? = some q → q ∈ ps ∨ before = q.element :: q.level.before ∧ above = q.above)

mutual

theorem closed_placesUnder (above : List Level) (before : List Element) :
    ∀ t : Tree, Closed above before (t.placesUnder above before)
  | .text _ => by simp [Closed, Tree.placesUnder]
  | .comment _ => by simp [Closed, Tree.placesUnder]
  | .element e children => by
    have inner := closed_placesOf (⟨e, before⟩ :: above) [] children
    intro p hp q
    rw [Tree.placesUnder] at hp ⊢
    rcases List.mem_cons.mp hp with rfl | hp
    · constructor
      · intro link
        cases above with
        | nil => simp [Place.parent?] at link
        | cons l ls =>
          cases link
          exact .inr rfl
      · intro link
        cases before with
        | nil => simp [Place.previous?] at link
        | cons b bs =>
          cases link
          exact .inr ⟨rfl, rfl⟩
    · constructor
      · intro link
        rcases (inner p hp q).1 link with hq | outer
        · exact .inl (List.mem_cons_of_mem _ hq)
        · obtain ⟨level, rest⟩ := q
          cases outer
          exact .inl List.mem_cons_self
      · intro link
        rcases (inner p hp q).2 link with hq | ⟨outer, -⟩
        · exact .inl (List.mem_cons_of_mem _ hq)
        · cases outer

theorem closed_placesOf (above : List Level) (before : List Element) :
    ∀ ts : List Tree, Closed above before (placesOf above before ts)
  | [] => by simp [Closed, placesOf]
  | .text _ :: ts => by simpa only [placesOf] using closed_placesOf above before ts
  | .comment _ :: ts => by simpa only [placesOf] using closed_placesOf above before ts
  | .element e children :: ts => by
    have first := closed_placesUnder above before (.element e children)
    have others := closed_placesOf above (e :: before) ts
    intro p hp q
    rw [placesOf] at hp ⊢
    rcases List.mem_append.mp hp with hp | hp
    · exact ⟨fun link => ((first p hp q).1 link).imp_left (List.mem_append_left _),
        fun link => ((first p hp q).2 link).imp_left (List.mem_append_left _)⟩
    · constructor
      · exact fun link => ((others p hp q).1 link).imp_left (List.mem_append_right _)
      · intro link
        rcases (others p hp q).2 link with hq | ⟨outer, same⟩
        · exact .inl (List.mem_append_right _ hq)
        · obtain ⟨⟨qe, qbefore⟩, qabove⟩ := q
          cases outer
          cases same
          refine .inl (List.mem_append_left _ ?_)
          rw [Tree.placesUnder]
          exact List.mem_cons_self

end

theorem parent?_mem_places {t : Tree} {p q : Place} (hp : p ∈ t.places)
    (link : p.parent? = some q) : q ∈ t.places := by
  rcases (closed_placesUnder [] [] t p hp q).1 link with hq | outer
  · exact hq
  · cases outer

theorem previous?_mem_places {t : Tree} {p q : Place} (hp : p ∈ t.places)
    (link : p.previous? = some q) : q ∈ t.places := by
  rcases (closed_placesUnder [] [] t p hp q).2 link with hq | ⟨outer, -⟩
  · exact hq
  · cases outer

theorem Place.Ancestor.mem_places {t : Tree} {q p : Place} (h : q.Ancestor p)
    (hp : p ∈ t.places) : q ∈ t.places := by
  induction h with
  | single link => exact parent?_mem_places hp link
  | tail _ link ih => exact parent?_mem_places ih link

theorem Place.Precedes.mem_places {t : Tree} {q p : Place} (h : q.Precedes p)
    (hp : p ∈ t.places) : q ∈ t.places := by
  induction h with
  | single link => exact previous?_mem_places hp link
  | tail _ link ih => exact previous?_mem_places ih link

/-! ## A tree for a place -/

/-- The place lies below an element without siblings before it. -/
def Place.Inside (p : Place) : Prop := ∃ outer root, p.above = outer ++ [⟨root, []⟩]

def leaf (e : Element) : Tree := .element e []

/-- A tree put behind leaves for the elements before it, and so on outwards. -/
def around (t : Tree) (before : List Element) : List Level → Tree
  | [] => t
  | l :: ls => around (.element l.element (before.reverse.map leaf ++ [t])) l.before ls

theorem mem_placesOf_of_leaves {above : List Level} {ts : List Tree} {p : Place}
    (xs before : List Element) (hp : p ∈ placesOf above (xs.reverse ++ before) ts) :
    p ∈ placesOf above before (xs.map leaf ++ ts) := by
  induction xs generalizing before with
  | nil => exact hp
  | cons x xs ih =>
    rw [List.reverse_cons, List.append_assoc] at hp
    rw [List.map_cons, List.cons_append, leaf, placesOf]
    exact List.mem_append_right _ (ih (x :: before) hp)

theorem mem_placesUnder_child {above : List Level} {e : Element} {before inner : List Element}
    {t : Tree} {p : Place} (hp : p ∈ t.placesUnder (⟨e, before⟩ :: above) inner) :
    p ∈ (Tree.element e (inner.reverse.map leaf ++ [t])).placesUnder above before := by
  rw [Tree.placesUnder]
  refine List.mem_cons_of_mem _ (mem_placesOf_of_leaves inner.reverse [] ?_)
  rw [List.reverse_reverse, List.append_nil]
  cases t with
  | element d children =>
    rw [placesOf]
    exact List.mem_append_left _ hp
  | text => simp [Tree.placesUnder] at hp
  | comment => simp [Tree.placesUnder] at hp

theorem mem_places_around {root : Element} {p : Place} (outer : List Level) (before : List Element)
    (t : Tree) (hp : p ∈ t.placesUnder (outer ++ [⟨root, []⟩]) before) :
    p ∈ (around t before (outer ++ [⟨root, []⟩])).places := by
  induction outer generalizing t before with
  | nil => exact mem_placesUnder_child hp
  | cons l ls ih => exact ih l.before _ (mem_placesUnder_child hp)

theorem Place.Inside.exists_tree {p : Place} (h : p.Inside) : ∃ t : Tree, p ∈ t.places := by
  obtain ⟨⟨e, before⟩, above⟩ := p
  obtain ⟨outer, root, rfl⟩ := h
  refine ⟨around (leaf e) before (outer ++ [⟨root, []⟩]), mem_places_around outer before _ ?_⟩
  rw [leaf, Tree.placesUnder]
  exact List.mem_cons_self

end AuthoredStyle.Dom
