/-!
# Finite sets of names

A set is its list of members in strictly increasing order, so two sets with
the same members are equal and a set is reported in one way only.
-/

namespace AuthoredStyle

structure NameSet where
  toList : List String
  increasing : toList.Pairwise (· < ·)
  deriving DecidableEq

namespace NameSet

instance : EmptyCollection NameSet := ⟨⟨[], .nil⟩⟩
instance : Inhabited NameSet := ⟨∅⟩
instance : Membership String NameSet := ⟨fun s x => x ∈ s.toList⟩
instance (x : String) (s : NameSet) : Decidable (x ∈ s) :=
  inferInstanceAs (Decidable (x ∈ s.toList))

def size (s : NameSet) : Nat := s.toList.length

/-- The name at its place in an increasing list, once. -/
def place (x : String) : List String → List String
  | [] => [x]
  | y :: ys => if x < y then x :: y :: ys else if x = y then y :: ys else y :: place x ys

theorem mem_place {x y : String} {ys : List String} : y ∈ place x ys ↔ y = x ∨ y ∈ ys := by
  induction ys with
  | nil => simp [place]
  | cons z zs ih =>
    rw [place]
    split
    · simp
    · split
      · rename_i same
        simp [same]
      · simp only [List.mem_cons, ih]
        exact or_left_comm

theorem place_increasing {x : String} {ys : List String} (h : ys.Pairwise (· < ·)) :
    (place x ys).Pairwise (· < ·) := by
  induction h with
  | nil => simp [place]
  | @cons z zs above rest ih =>
    rw [place]
    split
    · rename_i below
      refine .cons ?_ (.cons above rest)
      intro a ha
      rcases List.mem_cons.mp ha with rfl | ha
      · exact below
      · exact String.lt_trans below (above a ha)
    · split
      · exact .cons above rest
      · rename_i notBelow other
        refine .cons ?_ ih
        intro a ha
        rcases mem_place.mp ha with rfl | ha
        · rcases Std.lt_trichotomy a z with lt | eq | gt
          · exact absurd lt notBelow
          · exact absurd eq other
          · exact gt
        · exact above a ha

def insert (s : NameSet) (x : String) : NameSet :=
  ⟨place x s.toList, place_increasing s.increasing⟩

def ofList (xs : List String) : NameSet := xs.foldl insert ∅

def union (s t : NameSet) : NameSet := t.toList.foldl insert s

instance : Union NameSet := ⟨union⟩

theorem mem_def {x : String} {s : NameSet} : x ∈ s ↔ x ∈ s.toList := .rfl

@[simp] theorem mem_insert {s : NameSet} {x y : String} : y ∈ s.insert x ↔ y = x ∨ y ∈ s :=
  mem_place

@[simp] theorem not_mem_empty (x : String) : ¬ x ∈ (∅ : NameSet) := List.not_mem_nil

theorem mem_foldl_insert {xs : List String} {s : NameSet} {y : String} :
    y ∈ xs.foldl insert s ↔ y ∈ s ∨ y ∈ xs := by
  induction xs generalizing s with
  | nil => simp
  | cons x xs ih =>
    rw [List.foldl_cons, ih, mem_insert, List.mem_cons]
    exact ⟨fun h => by rcases h with (h | h) | h <;> simp [h],
      fun h => by rcases h with h | h | h <;> simp [h]⟩

@[simp] theorem mem_ofList {xs : List String} {y : String} : y ∈ ofList xs ↔ y ∈ xs := by
  simp [ofList, mem_foldl_insert]

@[simp] theorem mem_union {s t : NameSet} {y : String} : y ∈ s ∪ t ↔ y ∈ s ∨ y ∈ t :=
  mem_foldl_insert

/-- Increasing lists with the same members are the same list. -/
theorem eq_of_increasing {xs ys : List String} (hx : xs.Pairwise (· < ·))
    (hy : ys.Pairwise (· < ·)) (h : ∀ z, z ∈ xs ↔ z ∈ ys) : xs = ys := by
  induction xs generalizing ys with
  | nil =>
    cases ys with
    | nil => rfl
    | cons y ys => exact absurd ((h y).mpr List.mem_cons_self) List.not_mem_nil
  | cons x xs ih =>
    cases ys with
    | nil => exact absurd ((h x).mp List.mem_cons_self) List.not_mem_nil
    | cons y ys =>
      obtain ⟨ax, hx'⟩ := List.pairwise_cons.mp hx
      obtain ⟨ay, hy'⟩ := List.pairwise_cons.mp hy
      have same : x = y := by
        rcases List.mem_cons.mp ((h x).mp List.mem_cons_self) with e | hxy
        · exact e
        · rcases List.mem_cons.mp ((h y).mpr List.mem_cons_self) with e | hyx
          · exact e.symm
          · exact absurd (ax y hyx) (String.lt_asymm (ay x hxy))
      subst same
      rw [ih hx' hy']
      intro z
      constructor
      · intro hz
        rcases List.mem_cons.mp ((h z).mp (List.mem_cons_of_mem _ hz)) with rfl | hz'
        · exact absurd (ax z hz) (String.lt_irrefl z)
        · exact hz'
      · intro hz
        rcases List.mem_cons.mp ((h z).mpr (List.mem_cons_of_mem _ hz)) with rfl | hz'
        · exact absurd (ay z hz) (String.lt_irrefl z)
        · exact hz'

@[ext] theorem ext {s t : NameSet} (h : ∀ x, x ∈ s ↔ x ∈ t) : s = t := by
  cases s
  cases t
  congr
  exact eq_of_increasing ‹_› ‹_› h

theorem exists_mem_of_ne_empty {s : NameSet} (some : s ≠ ∅) : ∃ x, x ∈ s := by
  refine List.exists_mem_of_ne_nil s.toList fun none => some ?_
  ext x
  rw [mem_def, none]
  rfl

@[simp] theorem union_empty (s : NameSet) : s ∪ ∅ = s := by
  ext x
  simp

@[simp] theorem empty_union (s : NameSet) : ∅ ∪ s = s := by
  ext x
  simp

theorem union_comm (s t : NameSet) : s ∪ t = t ∪ s := by
  ext x
  simp [or_comm]

theorem union_assoc (s t u : NameSet) : s ∪ t ∪ u = s ∪ (t ∪ u) := by
  ext x
  simp [or_assoc]

instance : Std.Commutative (α := NameSet) (· ∪ ·) := ⟨union_comm⟩
instance : Std.Associative (α := NameSet) (· ∪ ·) := ⟨union_assoc⟩

theorem ofList_toList (s : NameSet) : ofList s.toList = s := by
  ext x
  exact mem_ofList

end NameSet

end AuthoredStyle
