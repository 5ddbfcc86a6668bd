import AuthoredStyle.Dom.Table
import AuthoredStyle.Html.Foreign
import AuthoredStyle.Html.Names

/-!
# Documents under construction

Tree construction keeps a stack of open elements, of which the first is the
current one, and a list of formatting elements that are to be opened again when a
block has cut them. New nodes go into the current element, or in front of a table
when something stands in it that has no place there.
-/

namespace AuthoredStyle.Html

open Dom (Element NodeId Insertion)

/-- Where in a document the reading is; it decides what the next item does. -/
inductive Mode where
  | initial
  | beforeHtml
  | beforeHead
  | inHead
  | afterHead
  | inBody
  | inText
  | inTable
  | inTableText
  | inCaption
  | inColumnGroup
  | inTableBody
  | inRow
  | inCell
  | inSelect
  | inSelectInTable
  | inTemplate
  | afterBody
  | inFrameset
  | afterFrameset
  | afterAfterBody
  | afterAfterFrameset
  deriving DecidableEq, Repr

/-- A formatting element with its tag, or the edge of a cell or an object. -/
inductive Formatting where
  | marker
  | element (id : NodeId) (tag : Tag)
  deriving DecidableEq, Repr

structure Builder where
  table : Dom.Table := {}
  mode : Mode := .initial
  /-- The mode to return to after text. -/
  outer : Mode := .initial
  /-- How the text behind the latest tag is read. -/
  kind : TextKind := .markup
  /-- The document is one of an old version. -/
  readsOldWay : Bool := false
  /-- The current element first. -/
  opened : List NodeId := []
  /-- The latest first. -/
  formatting : List Formatting := []
  /-- The modes of open templates, the innermost first. -/
  templates : List Mode := []
  /-- Text that stands in a table, the latest first. -/
  pending : List String := []
  head : Option NodeId := none
  form : Option NodeId := none
  framesetAllowed : Bool := true
  /-- A line feed that comes next is dropped. -/
  dropsLineFeed : Bool := false
  /-- What has no place in a table goes in front of it. -/
  fostering : Bool := false

namespace Builder

instance : Inhabited Builder := ⟨{}⟩

/-! ## Looking at open elements -/

def element (b : Builder) (id : NodeId) : Element := (b.table.element? id).getD { name := "" }

def isA (b : Builder) (p : Element → Bool) (id : NodeId) : Bool := p (b.element id)

def currentIs (b : Builder) (p : Element → Bool) : Bool := b.opened.head?.any (b.isA p)

def hasOpen (b : Builder) (name : String) : Bool := b.opened.any (b.isA (isNamed name))

/-- Whether an open element is found before one that ends the scope. -/
def inScope (b : Builder) (ends : Element → Bool) (wanted : NodeId → Bool) : Bool :=
  go b.opened
where
  go : List NodeId → Bool
    | [] => false
    | id :: below => wanted id || (!ends (b.element id) && go below)

def inScopeNamed (b : Builder) (ends : Element → Bool) (name : String) : Bool :=
  b.inScope ends (b.isA (isNamed name))

/-- The bottom of the stack. -/
def root? (b : Builder) : Option NodeId := b.opened.getLast?

/-- The body, which lies on the root. -/
def body? (b : Builder) : Option NodeId :=
  match b.opened.reverse with
  | _ :: id :: _ => if b.isA (isNamed "body") id then some id else none
  | _ => none

/-! ## Closing -/

def pop (b : Builder) : Builder := { b with opened := b.opened.drop 1 }

/-- Closes elements up to and with the first that passes. -/
def popThrough (b : Builder) (p : Element → Bool) : Builder :=
  { b with opened := (b.opened.dropWhile fun id => !b.isA p id).drop 1 }

/-- Closes elements until the current one passes. -/
def popTo (b : Builder) (p : Element → Bool) : Builder :=
  { b with opened := b.opened.dropWhile fun id => !b.isA p id }

def close (b : Builder) (id : NodeId) : Builder := { b with opened := b.opened.erase id }

def closeImplied (b : Builder) (names : List String) : Builder :=
  { b with opened := b.opened.dropWhile (b.isA (isOneOf names)) }

def closeImpliedExcept (b : Builder) (name : String) : Builder :=
  b.closeImplied (impliedEnds.filter (· ≠ name))

def closeNamed (b : Builder) (name : String) : Builder := b.popThrough (isNamed name)

def closeParagraph (b : Builder) : Builder := (b.closeImpliedExcept "p").closeNamed "p"

/-- A paragraph in reach ends where a block begins. -/
def endParagraph (b : Builder) : Builder :=
  if b.inScopeNamed endsButtonScope "p" then b.closeParagraph else b

/-! ## Inserting -/

inductive Spot where
  | within (parent : NodeId)
  | before (table previous : NodeId)

/-- In front of the innermost table, or into a template that is nearer. -/
def fosterSpot (b : Builder) : List NodeId → Spot
  | [] => .within ((b.root?).getD Dom.Table.documentId)
  | id :: below =>
    if b.isA (isNamed "template") id then .within id
    else if b.isA (isNamed "table") id then
      .before id (below.head?.getD Dom.Table.documentId)
    else fosterSpot b below

def spot (b : Builder) (target : NodeId) : Spot :=
  if b.fostering && b.isA (isOneOf ("table" :: "tr" :: tableParts)) target then
    b.fosterSpot b.opened
  else .within target

def current (b : Builder) : NodeId := b.opened.head?.getD Dom.Table.documentId

def put (b : Builder) (target : NodeId) (new : Insertion) : Builder :=
  match b.spot target with
  | .within parent => { b with table := b.table.append parent new }
  | .before table previous => { b with table := b.table.appendByParent table previous new }

def create (b : Builder) (content : Dom.Content) : Builder × NodeId :=
  let (table, id) := b.table.create content
  ({ b with table := table }, id)

/-- A new element in its place, left closed. -/
def insert (b : Builder) (e : Element) : Builder × NodeId :=
  let (b, id) := b.create (.element e)
  (b.put b.current (.node id), id)

def push (b : Builder) (id : NodeId) : Builder := { b with opened := id :: b.opened }

/-- A new element in its place, open. -/
def enter (b : Builder) (e : Element) : Builder :=
  let (b, id) := b.insert e
  b.push id

def htmlElement (tag : Tag) : Element := { name := tag.name, attributes := tag.attributes }

def openTag (b : Builder) (tag : Tag) : Builder := b.enter (htmlElement tag)

def openNamed (b : Builder) (name : String) : Builder := b.enter { name := name }

def insertTag (b : Builder) (tag : Tag) : Builder := (b.insert (htmlElement tag)).1

def addText (b : Builder) (text : String) : Builder := b.put b.current (.text text)

def addComment (b : Builder) (content : String) : Builder :=
  let (b, id) := b.create (.comment content)
  b.put b.current (.node id)

/-- A comment at the end of a given node, whatever is open. -/
def addCommentTo (b : Builder) (parent : NodeId) (content : String) : Builder :=
  let (b, id) := b.create (.comment content)
  { b with table := b.table.append parent (.node id) }

/-- The root element goes into the document. -/
def openRoot (b : Builder) (attributes : List (String × String)) : Builder :=
  let (b, id) := b.create (.element { name := "html", attributes := attributes })
  { b.push id with table := b.table.append Dom.Table.documentId (.node id) }

def addAttributes (b : Builder) (id : NodeId) (tag : Tag) : Builder :=
  { b with table := b.table.addAttributes id tag.attributes }

/-- An element whose content is read as text. -/
def openText (b : Builder) (tag : Tag) (kind : TextKind) : Builder :=
  { b.openTag tag with kind := kind, outer := b.mode, mode := .inText }

/-- An element of foreign content; without content it is not opened. -/
def openForeign (b : Builder) (space : Dom.Namespace) (tag : Tag) : Builder :=
  if tag.selfClosing then (b.insert (foreignElement space tag)).1
  else b.enter (foreignElement space tag)

def noFrameset (b : Builder) : Builder := { b with framesetAllowed := false }

/-! ## The mode that open elements ask for -/

def selectMode (b : Builder) : List NodeId → Mode
  | [] => .inSelect
  | id :: below =>
    if b.isA (isNamed "template") id then .inSelect
    else if b.isA (isNamed "table") id then .inSelectInTable
    else selectMode b below

/-- The mode for the innermost element that asks for one. -/
def modeFor (b : Builder) : List NodeId → Mode
  | [] => .inBody
  | id :: below =>
    let e := b.element id
    let last := below.isEmpty
    let enclosing := modeFor b below
    if e.space ≠ .html then enclosing
    else
      match e.name with
      | "select" => b.selectMode below
      | "td" | "th" => if last then enclosing else .inCell
      | "tr" => .inRow
      | "tbody" | "thead" | "tfoot" => .inTableBody
      | "caption" => .inCaption
      | "colgroup" => .inColumnGroup
      | "table" => .inTable
      | "template" => b.templates.head?.getD .inBody
      | "head" => if last then enclosing else .inHead
      | "body" => .inBody
      | "frameset" => .inFrameset
      | "html" => if b.head.isNone then .beforeHead else .afterHead
      | _ => enclosing

def resetMode (b : Builder) : Builder := { b with mode := b.modeFor b.opened }

end Builder

end AuthoredStyle.Html
