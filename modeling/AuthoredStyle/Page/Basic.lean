import AuthoredStyle.Page.Snapshot
import AuthoredStyle.Text.Search

/-!
# Inspected pages

A page numbers its elements in document order; the document element is number
0 and every parent comes before its children. It is made by pushing the elements
of a tree one by one, and a child is put on the list of its parent, which stands
in the page already, as soon as all below it are pushed. Queries about a number
that names no element answer as an element without tag, classes and relatives
would.

Classes that the inspector itself puts on elements to mark them are part of the
raw class list only.
-/

namespace AuthoredStyle

namespace Page

structure Element where
  tag : String
  id : Option String
  classes : List String
  computed : Dict String
  parent : Option Nat
  children : List Nat

def Element.adopt (e : Element) (child : Nat) : Element :=
  { e with children := e.children ++ [child] }

mutual

/-- An element and all below it put behind what an arena holds. -/
def push (arena : Array Element) (parent : Option Nat) : ElementSnapshot → Array Element
  | ⟨tag, id, classes, computed, children⟩ =>
    pushAll (arena.push ⟨String.ofList (Text.lower tag.toList), id, classes, computed, parent, []⟩)
      arena.size children

/-- Each tree's root is told to its parent once the whole tree is there. -/
def pushAll (arena : Array Element) (parent : Nat) : List ElementSnapshot → Array Element
  | [] => arena
  | t :: ts => pushAll ((push arena (some parent) t).modify parent (·.adopt arena.size)) parent ts

end

/-! ## Numbering

What has been pushed stands at numbers that can be told from the sizes of the trees. -/

/-- The numbers of sibling trees whose first element has number `start`. -/
def childNumbers (start : Nat) : List ElementSnapshot → List Nat
  | [] => []
  | t :: ts => start :: childNumbers (start + t.size) ts

mutual

/-- The elements of a tree in document order, its root at number `start`. -/
def number (start : Nat) (parent : Option Nat) : ElementSnapshot → List Element
  | ⟨tag, id, classes, computed, children⟩ =>
    ⟨String.ofList (Text.lower tag.toList), id, classes, computed, parent,
        childNumbers (start + 1) children⟩ ::
      numberAll (start + 1) start children

def numberAll (start parent : Nat) : List ElementSnapshot → List Element
  | [] => []
  | t :: ts => number start (some parent) t ++ numberAll (start + t.size) parent ts

end

mutual

theorem length_number (start : Nat) (parent : Option Nat) :
    ∀ t : ElementSnapshot, (number start parent t).length = t.size
  | ⟨_, _, _, _, children⟩ => by
    rw [number, List.length_cons, length_numberAll, ElementSnapshot.size]

theorem length_numberAll (start parent : Nat) :
    ∀ ts : List ElementSnapshot, (numberAll start parent ts).length = sizes ts
  | [] => rfl
  | t :: ts => by
    rw [numberAll, List.length_append, length_number, length_numberAll, sizes]

end

theorem modify_append {α : Type} (f : α → α) {i : Nat} {xs : List α} (inside : i < xs.length)
    (ys : List α) : (xs ++ ys).modify i f = xs.modify i f ++ ys := by
  induction xs generalizing i with
  | nil => simp at inside
  | cons x xs ih =>
    cases i with
    | zero => rfl
    | succ i => simp [ih (Nat.lt_of_succ_lt_succ inside)]

theorem modify_last {α : Type} (f : α → α) (xs : List α) (x : α) :
    (xs ++ [x]).modify xs.length f = xs ++ [f x] := by
  induction xs with
  | nil => rfl
  | cons y xs ih => simp [ih]

def Element.adoptAll (e : Element) (children : List Nat) : Element :=
  { e with children := e.children ++ children }

theorem Element.adoptAll_nil (e : Element) : e.adoptAll [] = e := by
  rw [adoptAll, List.append_nil]

theorem Element.adoptAll_cons (e : Element) (child : Nat) (children : List Nat) :
    e.adoptAll (child :: children) = (e.adopt child).adoptAll children := by
  simp [adopt, adoptAll]

mutual

theorem toList_push (arena : Array Element) (parent : Option Nat) :
    ∀ t : ElementSnapshot,
      (push arena parent t).toList = arena.toList ++ number arena.size parent t
  | ⟨tag, id, classes, computed, children⟩ => by
    rw [push, toList_pushAll _ (by simp) children, Array.size_push, Array.toList_push,
      ← Array.length_toList, modify_last, List.append_assoc, number]
    rfl

/-- The parent adopts the roots of all trees, and their elements stand behind the rest. -/
theorem toList_pushAll (arena : Array Element) {parent : Nat} (inside : parent < arena.size) :
    ∀ ts : List ElementSnapshot,
      (pushAll arena parent ts).toList =
        arena.toList.modify parent (·.adoptAll (childNumbers arena.size ts)) ++
          numberAll arena.size parent ts
  | [] => by
    have unchanged : (·.adoptAll []) = (id : Element → Element) := funext Element.adoptAll_nil
    rw [pushAll, childNumbers, unchanged, List.modify_id, numberAll, List.append_nil]
  | t :: ts => by
    have pushed := toList_push arena (some parent) t
    have size : (push arena (some parent) t).size = arena.size + t.size := by
      rw [← Array.length_toList, pushed, List.length_append, length_number, Array.length_toList]
    rw [pushAll, toList_pushAll _ (by rw [Array.size_modify]; omega) ts, Array.size_modify, size,
      Array.toList_modify, pushed, List.modify_modify_eq, modify_append _ inside, List.append_assoc,
      numberAll, childNumbers]
    congr 2
    exact funext fun e => (e.adoptAll_cons arena.size _).symm

end

/-- Every parent named in a numbering lies before the element that names it. -/
def ParentsBefore (start : Nat) (es : List Element) : Prop :=
  ∀ i e, es[i]? = some e → ∀ p, e.parent = some p → p < start + i

theorem ParentsBefore.append {start : Nat} {xs ys : List Element} (hx : ParentsBefore start xs)
    (hy : ParentsBefore (start + xs.length) ys) : ParentsBefore start (xs ++ ys) := by
  intro i e he p hp
  by_cases early : i < xs.length
  · rw [List.getElem?_append_left early] at he
    exact hx i e he p hp
  · rw [List.getElem?_append_right (by omega)] at he
    have := hy _ e he p hp
    omega

mutual

theorem parentsBefore_number (start : Nat) (parent : Option Nat)
    (h : ∀ p, parent = some p → p < start) :
    ∀ t : ElementSnapshot, ParentsBefore start (number start parent t)
  | ⟨_, _, _, _, children⟩ => by
    intro i e he p hp
    cases i with
    | zero =>
      rw [number, List.getElem?_cons_zero] at he
      cases he
      have := h p hp
      omega
    | succ i =>
      rw [number, List.getElem?_cons_succ] at he
      have := parentsBefore_numberAll (start + 1) start (by omega) children i e he p hp
      omega

theorem parentsBefore_numberAll (start parent : Nat) (h : parent < start) :
    ∀ ts : List ElementSnapshot, ParentsBefore start (numberAll start parent ts)
  | [] => by
    intro i e he
    simp [numberAll] at he
  | t :: ts => by
    rw [numberAll]
    refine ParentsBefore.append (parentsBefore_number start (some parent) ?_ t) ?_
    · rintro p ⟨⟩
      exact h
    · rw [length_number]
      exact parentsBefore_numberAll _ parent (by omega) ts

end

end Page

structure Page where
  elements : Array Page.Element
  stylesheets : List Page.Stylesheet
  parentsBefore : Page.ParentsBefore 0 elements.toList

namespace Page

theorem toList_push_empty (t : ElementSnapshot) : (push #[] none t).toList = number 0 none t :=
  toList_push #[] none t

def ofSnapshot (s : Snapshot) : Page where
  elements := push #[] none s.document
  stylesheets := s.stylesheets
  parentsBefore := by
    rw [toList_push_empty]
    exact parentsBefore_number 0 none (fun _ h => nomatch h) s.document

theorem elements_ofSnapshot (s : Snapshot) :
    (ofSnapshot s).elements = (number 0 none s.document).toArray :=
  congrArg List.toArray (toList_push_empty s.document)

/-- A page's elements are known by their numbers. -/
abbrev Handle := Nat

def size (p : Page) : Nat := p.elements.size

def isEmpty (p : Page) : Bool := p.elements.isEmpty

def root? (p : Page) : Option Handle := if p.isEmpty then none else some 0

def tag (p : Page) (h : Handle) : String := (p.elements[h]?.map Element.tag).getD ""

def id? (p : Page) (h : Handle) : Option String := p.elements[h]?.bind Element.id

/-- All classes, the inspector's own included. -/
def classList (p : Page) (h : Handle) : List String := (p.elements[h]?.map Element.classes).getD []

def children (p : Page) (h : Handle) : List Handle := (p.elements[h]?.map Element.children).getD []

def parent? (p : Page) (h : Handle) : Option Handle := p.elements[h]?.bind Element.parent

/-- The computed value of a property, empty when none was captured. -/
def computed (p : Page) (h : Handle) (property : String) : String :=
  (p.elements[h]?.bind (·.computed.get? property)).getD ""

def markerLead : List Char := "element-inspector-".toList

def isMarker (c : String) : Bool := Text.hasLead markerLead c.toList

/-- The classes without the inspector's own. -/
def classes (p : Page) (h : Handle) : List String := (p.classList h).filter (!isMarker ·)

theorem parent?_lt {p : Page} {h a : Handle} (parent : p.parent? h = some a) : a < h := by
  obtain ⟨e, found, parent⟩ := Option.bind_eq_some_iff.mp parent
  have before : a < 0 + h := p.parentsBefore h e (by simpa using found) a parent
  rwa [Nat.zero_add] at before

/-- The proper ancestors, nearest first. -/
def ancestors (p : Page) (h : Handle) : List Handle :=
  match _parent : p.parent? h with
  | none => []
  | some a => a :: p.ancestors a
termination_by h
decreasing_by exact parent?_lt _parent

end Page

end AuthoredStyle
