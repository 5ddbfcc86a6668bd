import AuthoredStyle.Dom.Table

/-!
# What operations on a table change

A table is read at a node: its children, its parent link, whether it is an element and
whether it can have children. Setting a parent link changes that link alone, and only if
the node is an element; setting children changes that list alone, and only if the node can
have children; making a node adds one without relatives. Text, attributes and the doctype
are not seen by any of these readers.
-/

namespace AuthoredStyle.Dom.Table

variable (t : Table)

def isElement (j : NodeId) : Bool := (t.content? j).any Content.isElement

/-- The node can have children. -/
def isParent (j : NodeId) : Bool := (t.content? j).any Content.isParent

/-- Some node lists it among its children. -/
def isHeld (x : NodeId) : Bool :=
  (List.range t.nodes.size).any fun p => (t.children p).contains x

variable {t} {i : NodeId}

/-! ## Readers -/

theorem isElement_of_node? {j : NodeId} {n : Node} (here : t.node? j = some n) :
    t.isElement j = Content.isElement n.content := by
  simp [isElement, content?, here]

theorem isParent_of_node? {j : NodeId} {n : Node} (here : t.node? j = some n) :
    t.isParent j = Content.isParent n.content := by
  simp [isParent, content?, here]

theorem lt_size_of_mem_children {p x : NodeId} (held : x ∈ t.children p) : p < t.nodes.size := by
  apply Classical.byContradiction
  intro outside
  have absent : t.node? p = none := Array.getElem?_eq_none (Nat.not_lt.mp outside)
  simp [children, absent] at held

theorem isHeld_iff {x : NodeId} : t.isHeld x ↔ ∃ p, x ∈ t.children p := by
  simp only [isHeld, List.any_eq_true, List.mem_range, List.contains_iff_mem]
  constructor
  · rintro ⟨p, -, held⟩
    exact ⟨p, held⟩
  · rintro ⟨p, held⟩
    exact ⟨p, lt_size_of_mem_children held, held⟩

/-! ## Changing one node -/

section Modify

variable {f : Node → Node}

theorem node?_modify (j : NodeId) :
    (t.modify i f).node? j = if j = i then (t.node? j).map f else t.node? j := by
  rw [node?, modify, Array.getElem?_modify]
  by_cases here : j = i
  · rw [if_pos here, if_pos here.symm, node?]
  · rw [if_neg here, if_neg (Ne.symm here), node?]

theorem size_modify : (t.modify i f).nodes.size = t.nodes.size := Array.size_modify

/-- A change that a reader of nodes does not see. -/
theorem read_modify {α : Type} (read : Node → α) (blind : ∀ n, read (f n) = read n) (j : NodeId) :
    ((t.modify i f).node? j).map read = (t.node? j).map read := by
  rw [node?_modify]
  split
  · rw [Option.map_map]
    exact congrArg (Option.map · (t.node? j)) (funext blind)
  · rfl

theorem children_modify (blind : ∀ n, (f n).children = n.children) (j : NodeId) :
    (t.modify i f).children j = t.children j := by
  rw [children, read_modify Node.children blind, children]

theorem parent?_modify (blind : ∀ n, (f n).parent = n.parent) (j : NodeId) :
    (t.modify i f).parent? j = t.parent? j := by
  have whole (t : Table) : t.parent? j = ((t.node? j).map Node.parent).join := by
    rw [parent?]
    cases t.node? j <;> rfl
  rw [whole, whole, read_modify Node.parent blind]

theorem isElement_modify (blind : ∀ n, Content.isElement (f n).content = Content.isElement n.content)
    (j : NodeId) : (t.modify i f).isElement j = t.isElement j := by
  have whole (t : Table) : t.isElement j =
      ((t.node? j).map fun n => Content.isElement n.content).any fun b => b := by
    rw [isElement, content?]
    cases t.node? j <;> rfl
  rw [whole, whole, read_modify (fun n => Content.isElement n.content) blind]

theorem isParent_modify (blind : ∀ n, Content.isParent (f n).content = Content.isParent n.content)
    (j : NodeId) : (t.modify i f).isParent j = t.isParent j := by
  have whole (t : Table) : t.isParent j =
      ((t.node? j).map fun n => Content.isParent n.content).any fun b => b := by
    rw [isParent, content?]
    cases t.node? j <;> rfl
  rw [whole, whole, read_modify (fun n => Content.isParent n.content) blind]

end Modify

/-! ## Changing a parent link or a child list -/

section Links

variable (q : Option NodeId) (f : List NodeId → List NodeId) (j : NodeId)

@[simp] theorem size_setParent : (t.setParent i q).nodes.size = t.nodes.size := size_modify

@[simp] theorem children_setParent : (t.setParent i q).children j = t.children j := by
  apply children_modify
  intro n
  split <;> rfl

@[simp] theorem isElement_setParent : (t.setParent i q).isElement j = t.isElement j := by
  apply isElement_modify
  intro n
  split <;> rfl

@[simp] theorem isParent_setParent : (t.setParent i q).isParent j = t.isParent j := by
  apply isParent_modify
  intro n
  split <;> rfl

theorem parent?_setParent :
    (t.setParent i q).parent? j = if j = i ∧ t.isElement j then q else t.parent? j := by
  rw [parent?, setParent, node?_modify, parent?]
  by_cases here : j = i
  · rw [if_pos here]
    cases read : t.node? j with
    | none => simp [isElement, content?, read]
    | some n =>
      rw [isElement_of_node? read]
      by_cases element : Content.isElement n.content <;> simp [element, here]
  · rw [if_neg here, if_neg (fun both => here both.1)]

@[simp] theorem size_setChildren : (t.setChildren i f).nodes.size = t.nodes.size := size_modify

@[simp] theorem parent?_setChildren : (t.setChildren i f).parent? j = t.parent? j := by
  apply parent?_modify
  intro n
  split <;> rfl

@[simp] theorem isElement_setChildren : (t.setChildren i f).isElement j = t.isElement j := by
  apply isElement_modify
  intro n
  split <;> rfl

@[simp] theorem isParent_setChildren : (t.setChildren i f).isParent j = t.isParent j := by
  apply isParent_modify
  intro n
  split <;> rfl

theorem children_setChildren :
    (t.setChildren i f).children j =
      if j = i ∧ t.isParent j then f (t.children j) else t.children j := by
  rw [children, setChildren, node?_modify, children]
  by_cases here : j = i
  · rw [if_pos here]
    cases read : t.node? j with
    | none => simp [isParent, content?, read]
    | some n =>
      rw [isParent_of_node? read]
      by_cases parent : Content.isParent n.content <;> simp [parent, here]
  · rw [if_neg here, if_neg (fun both => here both.1)]

end Links

/-! ## Making a node -/

section Create

variable (c : Content) (j : NodeId)

theorem size_create : (t.create c).1.nodes.size = t.nodes.size + 1 := Array.size_push ..

theorem node?_create :
    (t.create c).1.node? j = if j = t.nodes.size then some { content := c } else t.node? j :=
  Array.getElem?_push ..

@[simp] theorem children_create : (t.create c).1.children j = t.children j := by
  rw [children, node?_create, children]
  split
  · next new => simp [new, node?]
  · rfl

@[simp] theorem parent?_create : (t.create c).1.parent? j = t.parent? j := by
  rw [parent?, node?_create, parent?]
  split
  · next new => simp [new, node?]
  · rfl

theorem isElement_create :
    (t.create c).1.isElement j = if j = t.nodes.size then Content.isElement c else t.isElement j := by
  rw [isElement, content?, node?_create, isElement, content?]
  split <;> rfl

theorem isParent_create :
    (t.create c).1.isParent j = if j = t.nodes.size then Content.isParent c else t.isParent j := by
  rw [isParent, content?, node?_create, isParent, content?]
  split <;> rfl

end Create

/-! ## Several links at once -/

section SetParents

/-- The links of some nodes set to one parent, one behind the other. -/
def setParents (t : Table) (moved : List NodeId) (q : Option NodeId) : Table :=
  moved.foldl (fun t c => t.setParent c q) t

variable {moved : List NodeId} (q : Option NodeId) (j : NodeId)

@[simp] theorem size_setParents : (t.setParents moved q).nodes.size = t.nodes.size := by
  induction moved generalizing t with
  | nil => rfl
  | cons c moved ih => exact ih.trans (size_setParent q)

@[simp] theorem children_setParents : (t.setParents moved q).children j = t.children j := by
  induction moved generalizing t with
  | nil => rfl
  | cons c moved ih => exact ih.trans (children_setParent q j)

@[simp] theorem isElement_setParents : (t.setParents moved q).isElement j = t.isElement j := by
  induction moved generalizing t with
  | nil => rfl
  | cons c moved ih => exact ih.trans (isElement_setParent q j)

@[simp] theorem isParent_setParents : (t.setParents moved q).isParent j = t.isParent j := by
  induction moved generalizing t with
  | nil => rfl
  | cons c moved ih => exact ih.trans (isParent_setParent q j)

theorem parent?_setParents :
    (t.setParents moved q).parent? j = if j ∈ moved ∧ t.isElement j then q else t.parent? j := by
  induction moved generalizing t with
  | nil => rfl
  | cons c moved ih =>
    have behind : (t.setParents (c :: moved) q).parent? j = _ := ih (t := t.setParent c q)
    rw [behind, isElement_setParent, parent?_setParent]
    by_cases element : t.isElement j
    · simp only [element, and_true, List.mem_cons]
      by_cases first : j = c <;> by_cases later : j ∈ moved <;> simp only [first, later] <;> simp
    · simp [element]

end SetParents

/-! ## Contents -/

section Contents

variable (j : NodeId)

theorem content?_modify {f : Node → Node} (blind : ∀ n, (f n).content = n.content) :
    (t.modify i f).content? j = t.content? j := by
  rw [content?, read_modify Node.content blind, content?]

@[simp] theorem content?_setParent (q : Option NodeId) :
    (t.setParent i q).content? j = t.content? j := by
  apply content?_modify
  intro n
  split <;> rfl

@[simp] theorem content?_setChildren (f : List NodeId → List NodeId) :
    (t.setChildren i f).content? j = t.content? j := by
  apply content?_modify
  intro n
  split <;> rfl

@[simp] theorem content?_setParents (moved : List NodeId) (q : Option NodeId) :
    (t.setParents moved q).content? j = t.content? j := by
  induction moved generalizing t with
  | nil => rfl
  | cons c moved ih => exact ih.trans (content?_setParent j q)

theorem content?_create (c : Content) :
    (t.create c).1.content? j = if j = t.nodes.size then some c else t.content? j := by
  rw [content?, node?_create, content?]
  split <;> rfl

theorem text?_eq_some_iff {j : NodeId} {u : String} :
    t.text? j = some u ↔ t.content? j = some (.text u) := by
  rw [text?]
  split <;> simp_all

theorem content?_extendText {u : String} (text : t.text? i = some u) (s : String) :
    (t.extendText i s).content? j = if j = i then some (.text (u ++ s)) else t.content? j := by
  rw [content?, extendText, node?_modify, content?]
  split
  · next here =>
    rw [text?_eq_some_iff, content?, Option.map_eq_some_iff] at text
    obtain ⟨n, read, content⟩ := text
    simp [here, read, content]
  · rfl

/-- Only the content of a text is ever changed into that of a text. -/
theorem isSome_text?_modify {f : Node → Node}
    (blind : ∀ n s, (f n).content = .text s → ∃ u, n.content = .text u)
    (text : ((t.modify i f).text? j).isSome) : (t.text? j).isSome := by
  obtain ⟨s, text⟩ := Option.isSome_iff_exists.mp text
  rw [text?_eq_some_iff, content?, node?_modify] at text
  split at text
  · obtain ⟨changed, there, content⟩ := Option.map_eq_some_iff.mp text
    obtain ⟨n, read, rfl⟩ := Option.map_eq_some_iff.mp there
    obtain ⟨u, content⟩ := blind n s content
    rw [text?_eq_some_iff.mpr (by rw [content?, read, Option.map_some, content])]
    rfl
  · rw [text?_eq_some_iff.mpr text]
    rfl

end Contents

/-! ## What no reader sees -/

/-- The same relatives and the same kinds of nodes. -/
structure Alike (t t' : Table) : Prop where
  size : t'.nodes.size = t.nodes.size
  children : ∀ j, t'.children j = t.children j
  parent? : ∀ j, t'.parent? j = t.parent? j
  isElement : ∀ j, t'.isElement j = t.isElement j
  isParent : ∀ j, t'.isParent j = t.isParent j

theorem alike_extendText (s : String) : Alike t (t.extendText i s) where
  size := size_modify
  children := children_modify fun n => by split <;> rfl
  parent? := parent?_modify fun n => by split <;> rfl
  isElement := isElement_modify fun n => by
    split
    · next text => rw [text]; rfl
    · rfl
  isParent := isParent_modify fun n => by
    split
    · next text => rw [text]; rfl
    · rfl

theorem alike_addAttributes (new : List (String × String)) : Alike t (t.addAttributes i new) where
  size := size_modify
  children := children_modify fun n => by split <;> rfl
  parent? := parent?_modify fun n => by split <;> rfl
  isElement := isElement_modify fun n => by
    split
    · next element => rw [element]; rfl
    · rfl
  isParent := isParent_modify fun n => by
    split
    · next element => rw [element]; rfl
    · rfl

theorem alike_setDoctype (d : Doctype) : Alike t (t.setDoctype d) where
  size := rfl
  children _ := rfl
  parent? _ := rfl
  isElement _ := rfl
  isParent _ := rfl

theorem insertBefore_perm (new sibling : NodeId) (l : List NodeId) :
    (insertBefore new sibling l).Perm (new :: l) := by
  induction l with
  | nil => rfl
  | cons c cs ih =>
    rw [insertBefore]
    split
    · rfl
    · exact (ih.cons c).trans (List.Perm.swap new c cs)

end AuthoredStyle.Dom.Table
