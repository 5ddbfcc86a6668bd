import AuthoredStyle.Dom.Tree

/-!
# Tables of nodes under construction

While a document is being built its nodes are numbered in the order in which they
are made; node 0 is the document. Each node lists its children, and an element
also names its parent. The operations are the ones that tree construction asks
for; they assume nothing about the calls made before.

Text is merged only when it is appended behind a text node. A node inserted
before a sibling stays in the child list where it was before, if there is one.
-/

namespace AuthoredStyle.Dom

structure Doctype where
  name : String
  publicId : String
  systemId : String
  deriving DecidableEq, Repr

inductive Content where
  | document
  | element (data : Element)
  | text (content : String)
  | comment (content : String)
  deriving DecidableEq, Repr

abbrev NodeId := Nat

structure Node where
  content : Content
  children : List NodeId := []
  /-- Only elements know their parent. -/
  parent : Option NodeId := none
  deriving DecidableEq, Repr

/-- What is put into the table: a node that exists, or text. -/
inductive Insertion where
  | node (id : NodeId)
  | text (content : String)
  deriving DecidableEq, Repr

structure Table where
  nodes : Array Node := #[{ content := .document }]
  doctype : Option Doctype := none

namespace Table

instance : Inhabited Table := ⟨{}⟩

def documentId : NodeId := 0

def node? (t : Table) (id : NodeId) : Option Node := t.nodes[id]?

def children (t : Table) (id : NodeId) : List NodeId := ((t.node? id).map (·.children)).getD []

def parent? (t : Table) (id : NodeId) : Option NodeId := (t.node? id).bind (·.parent)

def content? (t : Table) (id : NodeId) : Option Content := (t.node? id).map (·.content)

def element? (t : Table) (id : NodeId) : Option Element :=
  match t.content? id with
  | some (.element e) => some e
  | _ => none

def text? (t : Table) (id : NodeId) : Option String :=
  match t.content? id with
  | some (.text s) => some s
  | _ => none

def modify (t : Table) (id : NodeId) (f : Node → Node) : Table :=
  { t with nodes := t.nodes.modify id f }

/-- A new node without relatives, and its number. -/
def create (t : Table) (content : Content) : Table × NodeId :=
  ({ t with nodes := t.nodes.push { content := content } }, t.nodes.size)

/-- Documents and elements have children, other nodes never do. -/
def Content.isParent : Content → Bool
  | .document | .element _ => true
  | .text _ | .comment _ => false

def Content.isElement : Content → Bool
  | .element _ => true
  | _ => false

def setParent (t : Table) (id : NodeId) (parent : Option NodeId) : Table :=
  t.modify id fun n => if Content.isElement n.content then { n with parent := parent } else n

def setChildren (t : Table) (id : NodeId) (f : List NodeId → List NodeId) : Table :=
  t.modify id fun n => if Content.isParent n.content then { n with children := f n.children } else n

/-- The node to insert, made first if it is text. -/
def realize (t : Table) : Insertion → Table × NodeId
  | .node id => (t, id)
  | .text s => t.create (.text s)

/-- The last child, if it is text. -/
def lastText? (t : Table) (id : NodeId) : Option NodeId :=
  (t.children id).getLast?.filter fun c => (t.text? c).isSome

def extendText (t : Table) (id : NodeId) (s : String) : Table :=
  t.modify id fun n =>
    match n.content with
    | .text old => { n with content := .text (old ++ s) }
    | _ => n

def appendNew (t : Table) (parent : NodeId) (new : Insertion) : Table :=
  let (t, id) := t.realize new
  (t.setParent id (some parent)).setChildren parent (· ++ [id])

/-- Behind the last child; text goes into a last child that is text. -/
def append (t : Table) (parent : NodeId) (new : Insertion) : Table :=
  match new, t.lastText? parent with
  | .text s, some last => t.extendText last s
  | _, _ => t.appendNew parent new

/-- A node in front of another one in a list, or at its end. -/
def insertBefore (new sibling : NodeId) : List NodeId → List NodeId
  | [] => [new]
  | c :: cs => if c = sibling then new :: c :: cs else c :: insertBefore new sibling cs

/-- In front of a sibling; nothing happens when that has no parent. -/
def appendBefore (t : Table) (sibling : NodeId) (new : Insertion) : Table :=
  match t.parent? sibling with
  | none => t
  | some parent =>
    let (t, id) := t.realize new
    (t.setParent id (some parent)).setChildren parent (insertBefore id sibling)

/-- In front of an element that has a parent, else into another one. -/
def appendByParent (t : Table) (element previous : NodeId) (new : Insertion) : Table :=
  if (t.parent? element).isSome then t.appendBefore element new else t.append previous new

def setDoctype (t : Table) (d : Doctype) : Table := { t with doctype := some d }

/-- Attributes whose names are new to the element, the first of a name only. -/
def addMissing (old new : List (String × String)) : List (String × String) :=
  new.foldl (fun attrs a => if attrs.any (·.1 = a.1) then attrs else attrs ++ [a]) old

def addAttributes (t : Table) (id : NodeId) (new : List (String × String)) : Table :=
  t.modify id fun n =>
    match n.content with
    | .element e =>
      { n with content := .element { e with attributes := addMissing e.attributes new } }
    | _ => n

/-- Out of its parent's list; a node without parent link stays where it is. -/
def remove (t : Table) (id : NodeId) : Table :=
  match t.parent? id with
  | none => t
  | some parent => (t.setChildren parent (·.filter (· ≠ id))).setParent id none

/-- All children of a node behind those of another one. -/
def reparent (t : Table) (id newParent : NodeId) : Table :=
  let moved := t.children id
  let t := t.setChildren id fun _ => []
  let t := moved.foldl (fun t c => t.setParent c (some newParent)) t
  t.setChildren newParent (· ++ moved)

/-- The tree below a node, at most `depth` generations of it. -/
def treeWithin (t : Table) : (depth : Nat) → NodeId → Option Tree
  | 0, _ => none
  | depth + 1, id =>
    match t.node? id with
    | some ⟨.element e, children, _⟩ => some (.element e (children.filterMap (t.treeWithin depth)))
    | some ⟨.text s, _, _⟩ => some (.text s)
    | some ⟨.comment s, _, _⟩ => some (.comment s)
    | _ => none

/-- The trees of the document's children. There are no more generations than
nodes. -/
def trees (t : Table) : List Tree :=
  (t.children documentId).filterMap (t.treeWithin t.nodes.size)

end Table

/-- The document element: the first element among the document's children. -/
def rootOf (trees : List Tree) : Option Tree := trees.find? fun t => t.element?.isSome

end AuthoredStyle.Dom
