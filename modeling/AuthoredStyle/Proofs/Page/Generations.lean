import AuthoredStyle.Proofs.Page.Arena

/-!
# Generations below an element

An element is some number of generations below another when that many parent
links lead from it to the other. Walking down through the children for a number
of generations meets exactly the elements at most so far below, and meets them
in document order, so none of them twice.
-/

namespace AuthoredStyle.Page

/-- The element is `n` generations below `r`. -/
inductive Below (p : Page) (r : Handle) : Nat → Handle → Prop where
  | self : Below p r 0 r
  | child {n : Nat} {a c : Handle} : Below p r n a → p.parent? c = some a → Below p r (n + 1) c

/-- An element and all below it, down to `room` generations, parents first. -/
def within (p : Page) : (room : Nat) → Handle → List Handle
  | 0, h => [h]
  | room + 1, h => h :: (p.children h).flatMap (p.within room)

theorem Below.of_child {p : Page} {r c e : Handle} {n : Nat} (link : p.parent? c = some r)
    (below : p.Below c n e) : p.Below r (n + 1) e := by
  induction below with
  | self => exact .child .self link
  | child _ link' ih => exact .child ih link'

theorem Below.cases_child {p : Page} {r e : Handle} {n : Nat} (below : p.Below r n e) :
    n = 0 ∧ e = r ∨ ∃ m c, n = m + 1 ∧ p.parent? c = some r ∧ p.Below c m e := by
  induction below with
  | self => exact .inl ⟨rfl, rfl⟩
  | @child n a e below link ih =>
    rcases ih with ⟨rfl, rfl⟩ | ⟨m, c, rfl, link', below'⟩
    · exact .inr ⟨0, e, rfl, link, .self⟩
    · exact .inr ⟨m + 1, c, rfl, link', .child below' link⟩

theorem Below.le {p : Page} {r e n : Nat} (below : p.Below r n e) : r ≤ e := by
  induction below with
  | self => exact Nat.le_refl r
  | child _ link ih => exact Nat.le_trans ih (Nat.le_of_lt (parent?_lt link))

/-- An element is one number of generations below another. -/
theorem Below.unique {p : Page} {r e : Handle} {m n : Nat} (hm : p.Below r m e)
    (hn : p.Below r n e) : m = n := by
  induction hm generalizing n with
  | self =>
    cases hn with
    | self => rfl
    | child below link => exact absurd (parent?_lt link) (Nat.not_lt_of_le below.le)
  | child below link ih =>
    cases hn with
    | self => exact absurd (parent?_lt link) (Nat.not_lt_of_le below.le)
    | child below' link' =>
      rw [link] at link'
      cases link'
      rw [ih below']

theorem Numbers.mem_within_iff {p : Page} {t : ElementSnapshot} (n : p.Numbers t) {room : Nat}
    {r e : Handle} : e ∈ p.within room r ↔ ∃ g ≤ room, p.Below r g e := by
  induction room generalizing r with
  | zero =>
    rw [within, List.mem_singleton]
    constructor
    · rintro rfl
      exact ⟨0, Nat.le_refl 0, .self⟩
    · rintro ⟨g, hg, below⟩
      rcases below.cases_child with ⟨-, same⟩ | ⟨m, c, rfl, -, -⟩
      · exact same
      · omega
  | succ room ih =>
    rw [within, List.mem_cons, List.mem_flatMap]
    constructor
    · rintro (rfl | ⟨c, hc, he⟩)
      · exact ⟨0, Nat.zero_le _, .self⟩
      · obtain ⟨g, hg, below⟩ := ih.mp he
        exact ⟨g + 1, by omega, .of_child (n.mem_children_iff.mp hc) below⟩
    · rintro ⟨g, hg, below⟩
      rcases below.cases_child with ⟨-, same⟩ | ⟨m, c, rfl, link, below⟩
      · exact .inl same
      · exact .inr ⟨c, n.mem_children_iff.mpr link, ih.mpr ⟨m, by omega, below⟩⟩

/-- Numbers that grow and stay in an interval. -/
def RunsIn (low high : Nat) (hs : List Nat) : Prop :=
  hs.Pairwise (· < ·) ∧ ∀ k ∈ hs, low ≤ k ∧ k < high

theorem RunsIn.append {low middle high : Nat} {xs ys : List Nat} (first : RunsIn low middle xs)
    (second : RunsIn middle high ys) (ordered : low ≤ middle ∧ middle ≤ high) :
    RunsIn low high (xs ++ ys) := by
  constructor
  · refine List.pairwise_append.mpr ⟨first.1, second.1, ?_⟩
    intro x hx y hy
    have := first.2 x hx
    have := second.2 y hy
    omega
  · intro k hk
    rcases List.mem_append.mp hk with hk | hk
    · have := first.2 k hk
      omega
    · have := second.2 k hk
      omega

theorem HoldsAll.runsIn_flatMap {p : Page} {start parent : Nat} {ts : List ElementSnapshot}
    {walk : Handle → List Handle}
    (each : ∀ (h : Nat) above t, p.Holds h above t → RunsIn h (h + t.size) (walk h))
    (held : p.HoldsAll start parent ts) :
    RunsIn start (start + sizes ts) ((childNumbers start ts).flatMap walk) := by
  induction ts generalizing start with
  | nil => exact ⟨.nil, by simp [childNumbers]⟩
  | cons t ts ih =>
    rw [HoldsAll] at held
    have rest := ih held.2
    rw [Nat.add_assoc, ← sizes] at rest
    rw [childNumbers, List.flatMap_cons]
    have := size_pos t
    rw [sizes] at rest ⊢
    exact (each start _ t held.1).append rest (by omega)

theorem Holds.runsIn_within {p : Page} (room : Nat) {h : Nat} {above : Option Handle}
    {t : ElementSnapshot} (held : p.Holds h above t) : RunsIn h (h + t.size) (p.within room h) := by
  have pos := size_pos t
  induction room generalizing h above t with
  | zero => exact ⟨List.pairwise_singleton _ _, by simp [within]; omega⟩
  | succ room ih =>
    have deeper := held.holdsAll.runsIn_flatMap fun h above t held => ih held (size_pos t)
    rw [← held.children_eq] at deeper
    have span : h + 1 + sizes t.children = h + t.size := by
      have := size_eq_sizes t
      omega
    rw [span] at deeper
    rw [within]
    have own : RunsIn h (h + 1) [h] := ⟨List.pairwise_singleton _ _, by simp⟩
    exact own.append deeper (by omega)

theorem Numbers.within_increasing {p : Page} {t : ElementSnapshot} (n : p.Numbers t) (room : Nat)
    (r : Nat) : (p.within room r).Pairwise (· < ·) := by
  rcases Nat.lt_or_ge r p.size with inside | outside
  · obtain ⟨above, t', held⟩ := n.exists_holds inside
    exact (held.runsIn_within room).1
  · cases room with
    | zero => exact List.pairwise_singleton _ _
    | succ room =>
      rw [within, children_of_size_le outside]
      exact List.pairwise_singleton _ _

end AuthoredStyle.Page
