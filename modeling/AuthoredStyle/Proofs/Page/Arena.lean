import AuthoredStyle.Page.Basic

/-!
# The numbering of a page

A page made from a snapshot numbers the elements in document order, so the
elements of each subtree have the numbers of an interval that its root opens.
Children and parent links say the same of every two elements, and a walk through
the generations below an element meets each of their elements once and with
growing numbers.
-/

namespace AuthoredStyle.Page

mutual

/-- The elements of a tree have the numbers from `h` on. -/
def Holds (p : Page) (h : Handle) (parent : Option Handle) : ElementSnapshot → Prop
  | ⟨tag, id, classes, computed, children⟩ =>
    p.elements[h]? = some ⟨String.ofList (Text.lower tag.toList), id, classes, computed, parent,
        childNumbers (h + 1) children⟩ ∧
      p.HoldsAll (h + 1) h children

def HoldsAll (p : Page) (start parent : Handle) : List ElementSnapshot → Prop
  | [] => True
  | t :: ts => p.Holds start (some parent) t ∧ p.HoldsAll (start + t.size) parent ts

end

theorem size_eq_sizes (t : ElementSnapshot) : t.size = sizes t.children + 1 := by
  cases t
  rw [ElementSnapshot.size]

theorem size_pos (t : ElementSnapshot) : 0 < t.size := by
  have := size_eq_sizes t
  omega

mutual

theorem holds_of_segment {p : Page} {h : Nat} {parent : Option Handle} :
    ∀ t : ElementSnapshot,
      (∀ i, i < t.size → p.elements[h + i]? = (number h parent t)[i]?) → p.Holds h parent t
  | ⟨tag, id, classes, computed, children⟩ => by
    intro same
    rw [Holds]
    rw [ElementSnapshot.size] at same
    refine ⟨?_, holdsAll_of_segment children ?_⟩
    · simpa [number] using same 0 (by omega)
    · intro i hi
      have := same (i + 1) (by omega)
      rw [number, List.getElem?_cons_succ] at this
      rw [← this]
      congr 1
      omega

theorem holdsAll_of_segment {p : Page} {start parent : Nat} :
    ∀ ts : List ElementSnapshot,
      (∀ i, i < sizes ts → p.elements[start + i]? = (numberAll start parent ts)[i]?) →
        p.HoldsAll start parent ts
  | [] => fun _ => by rw [HoldsAll]; trivial
  | t :: ts => by
    intro same
    rw [HoldsAll]
    rw [sizes] at same
    refine ⟨holds_of_segment t ?_, holdsAll_of_segment ts ?_⟩
    · intro i hi
      rw [same i (by omega), numberAll, List.getElem?_append_left (by rwa [length_number])]
    · intro i hi
      have := same (t.size + i) (by omega)
      rw [numberAll, List.getElem?_append_right (by rw [length_number]; omega), length_number] at this
      rw [Nat.add_assoc, this]
      congr 1
      omega

end

/-- The page numbers the elements of the tree and no others. -/
structure Numbers (p : Page) (t : ElementSnapshot) : Prop where
  held : p.Holds 0 none t
  size_eq : p.size = t.size

theorem numbers_ofSnapshot (s : Snapshot) : (ofSnapshot s).Numbers s.document where
  held := by
    refine holds_of_segment s.document fun i _ => ?_
    simp [elements_ofSnapshot]
  size_eq := by simp [size, elements_ofSnapshot, length_number]

variable {p : Page} {h start parent : Nat} {above : Option Handle} {t : ElementSnapshot}
  {ts : List ElementSnapshot}

theorem Holds.parent?_eq (held : p.Holds h above t) : p.parent? h = above := by
  obtain ⟨tag, id, classes, computed, children⟩ := t
  rw [Holds] at held
  simp [parent?, held.1]

theorem Holds.children_eq (held : p.Holds h above t) :
    p.children h = childNumbers (h + 1) t.children := by
  obtain ⟨tag, id, classes, computed, children⟩ := t
  rw [Holds] at held
  simp [Page.children, held.1]

theorem Holds.holdsAll (held : p.Holds h above t) : p.HoldsAll (h + 1) h t.children := by
  obtain ⟨tag, id, classes, computed, children⟩ := t
  rw [Holds] at held
  exact held.2

/-! ## Parents and children -/

theorem HoldsAll.holds_of_mem (held : p.HoldsAll start parent ts) {c : Handle}
    (hc : c ∈ childNumbers start ts) : ∃ t, p.Holds c (some parent) t := by
  induction ts generalizing start with
  | nil => simp [childNumbers] at hc
  | cons t ts ih =>
    rw [HoldsAll] at held
    rw [childNumbers] at hc
    rcases List.mem_cons.mp hc with rfl | hc
    · exact ⟨t, held.1⟩
    · exact ih held.2 hc

mutual

/-- Each number of the interval has a tree, under its parent unless it opens the
interval. -/
theorem Holds.exists_at {p : Page} {h : Nat} {above : Option Handle} {k : Nat} :
    ∀ t : ElementSnapshot, p.Holds h above t → h ≤ k → k < h + t.size →
      ∃ parent' t', p.Holds k parent' t' ∧ (k = h ∨ ∃ a, parent' = some a ∧ k ∈ p.children a)
  | ⟨tag, id, classes, computed, children⟩ => by
    intro held low high
    by_cases root : k = h
    · exact ⟨above, _, root ▸ held, .inl root⟩
    · rw [ElementSnapshot.size] at high
      obtain ⟨parent', t', held', child | inner⟩ :=
        HoldsAll.exists_at (k := k) children held.holdsAll (by omega) (by omega)
      · refine ⟨parent', t', held', .inr ⟨h, child.2, ?_⟩⟩
        rw [held.children_eq]
        exact child.1
      · exact ⟨parent', t', held', .inr inner⟩

theorem HoldsAll.exists_at {p : Page} {start parent : Nat} {k : Nat} :
    ∀ ts : List ElementSnapshot, p.HoldsAll start parent ts → start ≤ k → k < start + sizes ts →
      ∃ parent' t', p.Holds k parent' t' ∧
        (k ∈ childNumbers start ts ∧ parent' = some parent ∨
          ∃ a, parent' = some a ∧ k ∈ p.children a)
  | [] => by
    intro _ low high
    rw [sizes] at high
    omega
  | t :: ts => by
    intro held low high
    rw [HoldsAll] at held
    rw [sizes] at high
    rw [childNumbers]
    by_cases early : k < start + t.size
    · obtain ⟨parent', t', held', root | inner⟩ := Holds.exists_at (k := k) t held.1 low early
      · have same : parent' = some parent := by
          rw [← held'.parent?_eq, root, held.1.parent?_eq]
        exact ⟨parent', t', held', .inl ⟨root ▸ List.mem_cons_self, same⟩⟩
      · exact ⟨parent', t', held', .inr inner⟩
    · obtain ⟨parent', t', held', child | inner⟩ :=
        HoldsAll.exists_at (k := k) ts held.2 (by omega) (by omega)
      · exact ⟨parent', t', held', .inl ⟨List.mem_cons_of_mem _ child.1, child.2⟩⟩
      · exact ⟨parent', t', held', .inr inner⟩

end

theorem Numbers.exists_holds (n : p.Numbers t) (inside : h < p.size) :
    ∃ above t', p.Holds h above t' := by
  obtain ⟨above, t', held, -⟩ :=
    Holds.exists_at (k := h) t n.held (Nat.zero_le h) (by rw [← n.size_eq]; omega)
  exact ⟨above, t', held⟩

theorem lt_size_of_parent? {a : Handle} (link : p.parent? h = some a) : h < p.size := by
  obtain ⟨e, found, -⟩ := Option.bind_eq_some_iff.mp link
  exact (Array.getElem?_eq_some_iff.mp found).1

theorem children_of_size_le (outside : p.size ≤ h) : p.children h = [] := by
  simp [children, Array.getElem?_eq_none outside]

theorem lt_size_of_mem_children {c : Handle} (hc : c ∈ p.children h) : h < p.size := by
  rcases Nat.lt_or_ge h p.size with inside | outside
  · exact inside
  · simp [children_of_size_le outside] at hc

/-- Children and parent links agree. -/
theorem Numbers.mem_children_iff (n : p.Numbers t) {a c : Nat} :
    c ∈ p.children a ↔ p.parent? c = some a := by
  constructor
  · intro hc
    obtain ⟨above, t', held⟩ := n.exists_holds (lt_size_of_mem_children hc)
    rw [held.children_eq] at hc
    obtain ⟨_, child⟩ := held.holdsAll.holds_of_mem hc
    exact child.parent?_eq
  · intro link
    have inside := lt_size_of_parent? link
    obtain ⟨parent', t', held, root | ⟨b, same, child⟩⟩ :=
      Holds.exists_at (k := c) t n.held (Nat.zero_le c) (by rw [← n.size_eq]; omega)
    · rw [root, n.held.parent?_eq] at link
      cases link
    · rw [held.parent?_eq, same] at link
      cases link
      exact child

/-! ## Document order -/

theorem le_of_mem_childNumbers {c : Nat} (hc : c ∈ childNumbers start ts) : start ≤ c := by
  induction ts generalizing start with
  | nil => simp [childNumbers] at hc
  | cons t ts ih =>
    rw [childNumbers] at hc
    rcases List.mem_cons.mp hc with rfl | hc
    · exact Nat.le_refl _
    · have := ih hc
      omega

theorem childNumbers_increasing (start : Nat) (ts : List ElementSnapshot) :
    (childNumbers start ts).Pairwise (· < ·) := by
  induction ts generalizing start with
  | nil => exact .nil
  | cons t ts ih =>
    rw [childNumbers]
    refine .cons ?_ (ih (start + t.size))
    intro c hc
    have := le_of_mem_childNumbers hc
    have := size_pos t
    omega

theorem Numbers.children_increasing (n : p.Numbers t) (a : Nat) :
    (p.children a).Pairwise (· < ·) := by
  rcases Nat.lt_or_ge a p.size with inside | outside
  · obtain ⟨above, t', held⟩ := n.exists_holds inside
    rw [held.children_eq]
    exact childNumbers_increasing _ _
  · simp [children_of_size_le outside]

theorem Numbers.children_nodup (n : p.Numbers t) (a : Nat) : (p.children a).Nodup :=
  (n.children_increasing a).imp fun below => Nat.ne_of_lt below

end AuthoredStyle.Page
