import AuthoredStyle.Proofs.Page.Descent
import Mathlib.Data.List.Nodup

/-!
# Reading a page back

A page made from a snapshot holds all of it and nothing else. Its numbers are the places
of the elements in document order, and reading an element and all below it back through
the page's queries gives the element's own tree, with tags in lower case.

What is read back is told as a relation. Children of an arbitrary page may lead back to
their parent, and from there nothing is read.
-/

namespace AuthoredStyle.Page

/-! ## Trees -/

mutual

/-- The same tree with its tags in lower case. -/
def ElementSnapshot.lowered : ElementSnapshot → ElementSnapshot
  | ⟨tag, id, classes, computed, children⟩ =>
    ⟨String.ofList (Text.lower tag.toList), id, classes, computed, loweredAll children⟩

def loweredAll : List ElementSnapshot → List ElementSnapshot
  | [] => []
  | t :: ts => t.lowered :: loweredAll ts

end

mutual

/-- The element and all below it, in document order. -/
def ElementSnapshot.elements : ElementSnapshot → List ElementSnapshot
  | ⟨tag, id, classes, computed, children⟩ =>
    ⟨tag, id, classes, computed, children⟩ :: elementsOf children

def elementsOf : List ElementSnapshot → List ElementSnapshot
  | [] => []
  | t :: ts => t.elements ++ elementsOf ts

end

mutual

theorem length_elements : ∀ t : ElementSnapshot, t.elements.length = t.size
  | ⟨_, _, _, _, children⟩ => by
    rw [ElementSnapshot.elements, List.length_cons, length_elementsOf children,
      ElementSnapshot.size]

theorem length_elementsOf : ∀ ts : List ElementSnapshot, (elementsOf ts).length = sizes ts
  | [] => rfl
  | t :: ts => by
    rw [elementsOf, List.length_append, length_elements t, length_elementsOf ts, sizes]

end

/-! ## Reading -/

/-- All computed values that were captured of an element. -/
def captured (p : Page) (h : Handle) : Dict String :=
  (p.elements[h]?.map Element.computed).getD ∅

/-- What the queries tell of an element and, child by child, of all below it. -/
inductive Reads (p : Page) : Handle → ElementSnapshot → Prop where
  | mk {h : Handle} {below : List ElementSnapshot} :
      List.Forall₂ p.Reads (p.children h) below →
        Reads p h ⟨p.tag h, p.id? h, p.classList h, p.captured h, below⟩

mutual

theorem Reads.unique {p : Page} {h : Handle} {t' : ElementSnapshot} :
    ∀ t : ElementSnapshot, p.Reads h t → p.Reads h t' → t = t'
  | ⟨_, _, _, _, below⟩, .mk all, .mk all' => by rw [Reads.unique_all below all all']

theorem Reads.unique_all {p : Page} {hs : List Handle} {ts' : List ElementSnapshot} :
    ∀ ts : List ElementSnapshot, List.Forall₂ p.Reads hs ts → List.Forall₂ p.Reads hs ts' → ts = ts'
  | [], .nil, .nil => rfl
  | t :: ts, .cons first rest, .cons first' rest' => by
    rw [Reads.unique t first first', Reads.unique_all ts rest rest']

end

/-! ## Pages that number a tree -/

mutual

theorem Holds.reads {p : Page} {h : Handle} {above : Option Handle} :
    ∀ t : ElementSnapshot, p.Holds h above t → p.Reads h t.lowered
  | ⟨t, i, cs, values, children⟩ => by
    intro held
    have below := HoldsAll.reads children held.holdsAll
    rw [← held.children_eq] at below
    rw [Holds] at held
    have read := Reads.mk below
    simpa [tag, id?, classList, captured, held.1, ElementSnapshot.lowered] using read

theorem HoldsAll.reads {p : Page} {start parent : Handle} :
    ∀ ts : List ElementSnapshot, p.HoldsAll start parent ts →
      List.Forall₂ p.Reads (childNumbers start ts) (loweredAll ts)
  | [] => fun _ => .nil
  | t :: ts => by
    intro held
    rw [HoldsAll] at held
    exact .cons (Holds.reads t held.1) (HoldsAll.reads ts held.2)

end

mutual

/-- An element's place in document order is its number, counted from the root's. -/
theorem Holds.holds_at {p : Page} {h i : Nat} {above : Option Handle} {e : ElementSnapshot} :
    ∀ t : ElementSnapshot, p.Holds h above t → t.elements[i]? = some e →
      ∃ above', p.Holds (h + i) above' e
  | ⟨tag, id, classes, computed, children⟩ => by
    intro held here
    rw [ElementSnapshot.elements] at here
    cases i with
    | zero =>
      cases here
      exact ⟨above, held⟩
    | succ i =>
      obtain ⟨above', held'⟩ := HoldsAll.holds_at children held.holdsAll here
      exact ⟨above', by rwa [Nat.add_right_comm] at held'⟩

theorem HoldsAll.holds_at {p : Page} {start parent i : Nat} {e : ElementSnapshot} :
    ∀ ts : List ElementSnapshot, p.HoldsAll start parent ts → (elementsOf ts)[i]? = some e →
      ∃ above, p.Holds (start + i) above e
  | [] => by
    intro _ here
    cases here
  | t :: ts => by
    intro held here
    rw [HoldsAll] at held
    rw [elementsOf] at here
    by_cases early : i < t.elements.length
    · rw [List.getElem?_append_left early] at here
      exact Holds.holds_at t held.1 here
    · rw [List.getElem?_append_right (by omega)] at here
      obtain ⟨above, held'⟩ := HoldsAll.holds_at ts held.2 here
      rw [length_elements] at early held'
      have place : start + t.size + (i - t.size) = start + i := by omega
      exact ⟨above, place ▸ held'⟩

end

section Numbers

variable {p : Page} {t : ElementSnapshot}

theorem Numbers.reads_iff (n : p.Numbers t) {h : Handle} {e : ElementSnapshot}
    (here : t.elements[h]? = some e) (e' : ElementSnapshot) : p.Reads h e' ↔ e' = e.lowered := by
  obtain ⟨above, held⟩ := Holds.holds_at t n.held here
  rw [Nat.zero_add] at held
  have read := Holds.reads e held
  exact ⟨fun other => Reads.unique e' other read, fun same => same ▸ read⟩

theorem Numbers.count_children (n : p.Numbers t) (a c : Handle) :
    (p.children a).count c = if p.parent? c = some a then 1 else 0 := by
  split
  · rename_i link
    exact List.count_eq_one_of_mem (n.children_nodup a) (n.mem_children_iff.mpr link)
  · rename_i other
    exact List.count_eq_zero.mpr (mt n.mem_children_iff.mp other)

theorem parent?_of_size_le {h : Handle} (outside : p.size ≤ h) : p.parent? h = none := by
  simp [parent?, Array.getElem?_eq_none outside]

end Numbers

/-- A page has one number for each element of its snapshot, in document order. Children and
parent links say the same, each child standing once; parents come before their children, and
only the first element has none. What is read back at a number is the element at that place,
so that the whole is read back from the first number. -/
theorem ofSnapshot_keeps_snapshot (s : Snapshot) :
    let p := ofSnapshot s
    p.size = s.document.elements.length ∧
      (∀ h e, h < p.size ∧ p.Reads h e ↔ s.document.elements[h]?.map .lowered = some e) ∧
      (∀ a c, (p.children a).count c = if p.parent? c = some a then 1 else 0) ∧
      (∀ a c, p.parent? c = some a → a < c) ∧
      (∀ h, p.parent? h = none ↔ h = 0 ∨ p.size ≤ h) ∧
      ∀ e, p.Reads 0 e ↔ e = s.document.lowered := by
  intro p
  have n : p.Numbers s.document := numbers_ofSnapshot s
  have size : p.size = s.document.elements.length := by rw [n.size_eq, length_elements]
  refine ⟨size, ?_, n.count_children, fun a c link => parent?_lt link, ?_, ?_⟩
  · intro h e
    rcases Nat.lt_or_ge h p.size with inside | outside
    · have here := List.getElem?_eq_getElem (size ▸ inside)
      rw [n.reads_iff here, here]
      simp [inside, eq_comm]
    · have none : s.document.elements[h]? = .none := List.getElem?_eq_none (size ▸ outside)
      simp [none, Nat.not_lt.mpr outside]
  · intro h
    rcases Nat.lt_or_ge h p.size with inside | outside
    · rw [n.parent?_eq_none_iff inside, or_iff_left (Nat.not_le.mpr inside)]
    · simp [parent?_of_size_le outside, outside]
  · have here : s.document.elements[0]? = some s.document := by
      cases s.document
      rfl
    exact n.reads_iff here

/-- Four elements, the third of them two generations below the first. -/
def shoutedPage : Snapshot where
  document := {
    tag := "HTML"
    children := [
      { tag := "BODY", id := some "top", children := [{ tag := "P", classes := ["lead"] }] },
      { tag := "ASIDE" }] }

theorem ofSnapshot_keeps_snapshot_of_shouted :
    let p := ofSnapshot shoutedPage
    p.parent? 2 = some 1 ∧ (p.children 1).count 2 = 1 ∧ 1 < 2 ∧
      p.Reads 2 { tag := "p", classes := ["lead"] } ∧ p.Reads 0 shoutedPage.document.lowered := by
  intro p
  have link : p.parent? 2 = some 1 := by decide
  obtain ⟨-, placed, counted, before, -, whole⟩ := ofSnapshot_keeps_snapshot shoutedPage
  exact ⟨link, (counted 1 2).trans (if_pos link), before 1 2 link, ((placed 2 _).mpr rfl).2,
    (whole _).mpr rfl⟩

end AuthoredStyle.Page
