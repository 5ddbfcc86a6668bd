import AuthoredStyle.Proofs.Page.Arena
import AuthoredStyle.Proofs.Page.Path

/-!
# Following steps down

Going down, a step picks a child by counting the children of its tag from the
front; going up, an element's own step counts the siblings of its tag in front
of it. An element's own step picks it out of its siblings and no other step
does, so steps lead from the root to an element exactly when they are its own
steps and those of its ancestors.
-/

namespace AuthoredStyle

/-- The item behind so many that pass a test is found by its number among those
that do. -/
theorem getElem?_filter_eq_some_iff {α : Type} [DecidableEq α] {l : List α} {q : α → Bool}
    (distinct : l.Nodup) {k : Nat} {c : α} :
    (l.filter q)[k]? = some c ↔ c ∈ l ∧ q c = true ∧ (l.takeWhile (· ≠ c)).countP q = k := by
  induction l generalizing k with
  | nil => simp
  | cons a l ih =>
    obtain ⟨fresh, distinct⟩ := List.nodup_cons.mp distinct
    by_cases here : a = c
    · subst here
      have later (k : Nat) : (l.filter q)[k]? ≠ some a := fun found =>
        fresh (List.mem_of_mem_filter (List.mem_of_getElem? found))
      cases passes : q a
      · simp [passes, later]
      · cases k <;> simp [passes, later]
    · have other : c ≠ a := Ne.symm here
      cases passes : q a
      · simp [passes, here, other, ih distinct]
      · cases k with
        | zero => simp [passes, here]
        | succ k => simp [passes, here, other, ih distinct]

namespace Page

/-- The steps to an element from the root down. -/
def stepsTo (p : Page) (h : Handle) : List Step := (h :: p.ancestors h).reverse.map p.stepOf

/-- The element that steps lead to. -/
def follow? (p : Page) : List Step → Option Handle
  | [] => none
  | first :: steps => do
    let root ← p.root?
    if p.tag root = first.tag ∧ first.place = 1 then steps.foldlM p.childAt? root else none

theorem resolve?_eq (p : Page) (path : String) :
    p.resolve? path = ((Text.runs (· = '/') path.toList).mapM step?).bind p.follow? := by
  rw [resolve?]
  cases (Text.runs (· = '/') path.toList).mapM step? with
  | none => rfl
  | some steps => cases steps <;> rfl

variable {p : Page} {t : ElementSnapshot}

theorem stepsTo_child {a c : Handle} (link : p.parent? c = some a) :
    p.stepsTo c = p.stepsTo a ++ [p.stepOf c] := by
  simp [stepsTo, p.isWalk_ancestors.step link]

theorem stepsTo_root {h : Handle} (root : p.parent? h = none) :
    p.stepsTo h = [p.stepOf h] := by
  simp [stepsTo, p.isWalk_ancestors.stop root]

theorem stepsTo_ne_nil (h : Handle) : p.stepsTo h ≠ [] := by
  simp [stepsTo]

theorem Numbers.parent?_eq_none_iff (n : p.Numbers t) {h : Nat} (inside : h < p.size) :
    p.parent? h = none ↔ h = 0 := by
  constructor
  · intro root
    obtain ⟨above, t', held, first | ⟨a, same, -⟩⟩ :=
      Holds.exists_at (k := h) t n.held (Nat.zero_le h) (by rw [← n.size_eq]; omega)
    · exact first
    · rw [held.parent?_eq, same] at root
      cases root
  · rintro rfl
    exact n.held.parent?_eq

theorem Numbers.size_pos (n : p.Numbers t) : 0 < p.size := by
  rw [n.size_eq]
  exact Page.size_pos t

/-- The steps to every element start at the root. -/
theorem Numbers.head?_stepsTo (n : p.Numbers t) {h : Nat} (inside : h < p.size) :
    (p.stepsTo h).head? = some (p.stepOf 0) := by
  induction h using Nat.strongRecOn with
  | ind h ih =>
    cases link : p.parent? h with
    | none =>
      rw [stepsTo_root link, (n.parent?_eq_none_iff inside).mp link]
      rfl
    | some a =>
      have up := parent?_lt link
      rw [stepsTo_child link, List.head?_append_of_ne_nil _ (stepsTo_ne_nil a)]
      exact ih a up (Nat.lt_trans up inside)

/-- A step picks a child exactly when it is that child's own. -/
theorem Numbers.childAt?_eq_some_iff (n : p.Numbers t) {a c : Nat} {s : Step} :
    p.childAt? a s = some c ↔ p.parent? c = some a ∧ s = p.stepOf c := by
  obtain ⟨tag, place⟩ := s
  cases place with
  | zero =>
    rw [childAt?, if_pos rfl]
    constructor
    · intro none
      cases none
    · rintro ⟨link, own⟩
      rw [stepOf_child link] at own
      simp [placeAmong] at own
  | succ k =>
    rw [childAt?, if_neg (Nat.succ_ne_zero k), getElem?_filter_eq_some_iff (n.children_nodup a),
      n.mem_children_iff]
    constructor
    · rintro ⟨link, same, count⟩
      have same : p.tag c = tag := by simpa using same
      subst same
      have count : _ = k := count
      exact ⟨link, by rw [stepOf_child link, placeAmong, count]⟩
    · rintro ⟨link, own⟩
      rw [stepOf_child link] at own
      obtain ⟨rfl, count⟩ := Step.mk.inj own
      exact ⟨link, by simp, (Nat.succ.inj count).symm⟩

/-- By induction on the steps from the last one up: the last step picks a child of
the element that the steps before it lead to. -/
theorem Numbers.foldlM_childAt?_iff (n : p.Numbers t) {steps : List Step} {h : Nat} :
    steps.foldlM p.childAt? 0 = some h ↔ h < p.size ∧ p.stepsTo h = p.stepOf 0 :: steps := by
  have top : p.parent? 0 = none := (n.parent?_eq_none_iff n.size_pos).mpr rfl
  induction steps using List.reverseRecOn generalizing h with
  | nil =>
    rw [List.foldlM_nil]
    constructor
    · rintro ⟨⟩
      exact ⟨n.size_pos, stepsTo_root top⟩
    · rintro ⟨inside, own⟩
      cases link : p.parent? h with
      | none =>
        rw [(n.parent?_eq_none_iff inside).mp link]
        rfl
      | some a =>
        rw [stepsTo_child link, ← List.nil_append [p.stepOf 0]] at own
        exact absurd (List.append_inj_left' own rfl) (stepsTo_ne_nil a)
  | append_singleton steps s ih =>
    rw [List.foldlM_append]
    simp only [List.foldlM_cons, List.foldlM_nil, bind_pure, Option.bind_eq_bind,
      Option.bind_eq_some_iff, n.childAt?_eq_some_iff]
    constructor
    · rintro ⟨a, led, link, rfl⟩
      obtain ⟨-, own⟩ := ih.mp led
      exact ⟨lt_size_of_parent? link, by rw [stepsTo_child link, own, List.cons_append]⟩
    · rintro ⟨inside, own⟩
      cases link : p.parent? h with
      | none =>
        rw [stepsTo_root link] at own
        simp at own
      | some a =>
        rw [stepsTo_child link, ← List.cons_append] at own
        obtain ⟨own, last⟩ := List.append_inj' own rfl
        have above : a < p.size := Nat.lt_trans (parent?_lt link) inside
        exact ⟨a, ih.mpr ⟨above, own⟩, rfl, (List.singleton_inj.mp last).symm⟩

/-- Steps lead to an element exactly when they are the steps to it. -/
theorem Numbers.follow?_eq_some_iff (n : p.Numbers t) {steps : List Step} {h : Nat} :
    p.follow? steps = some h ↔ h < p.size ∧ p.stepsTo h = steps := by
  have top : p.parent? 0 = none := (n.parent?_eq_none_iff n.size_pos).mpr rfl
  have root : p.root? = some 0 := by
    have some : p.elements ≠ #[] := by
      intro none
      have := n.size_pos
      simp [size, none] at this
    simp [root?, isEmpty, some]
  cases steps with
  | nil => simp [follow?, stepsTo]
  | cons first steps =>
    rw [follow?, root]
    obtain ⟨tag, place⟩ := first
    by_cases same : p.tag 0 = tag ∧ place = 1
    · obtain ⟨rfl, rfl⟩ := same
      simp only [Option.bind_eq_bind, Option.bind_some, and_self, if_true]
      rw [n.foldlM_childAt?_iff, stepOf_root top]
    · simp only [Option.bind_eq_bind, Option.bind_some, if_neg same]
      constructor
      · intro none
        cases none
      · rintro ⟨inside, own⟩
        have head := n.head?_stepsTo inside
        rw [own, stepOf_root top] at head
        simp at head
        exact absurd ⟨head.1.symm, head.2⟩ same

end Page

end AuthoredStyle
