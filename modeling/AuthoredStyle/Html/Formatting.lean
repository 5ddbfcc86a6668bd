import AuthoredStyle.Html.Builder

/-!
# Formatting elements

A formatting element that a block has cut is opened again inside the block. When
its end tag comes while blocks are open in it, the element is split: its parts
outside and inside of the innermost such block become elements of their own, with
everything else in its place.
-/

namespace AuthoredStyle.Html.Builder

open Dom (Element NodeId)

def addMarker (b : Builder) : Builder := { b with formatting := .marker :: b.formatting }

def isMarker : Formatting → Bool
  | .marker => true
  | .element .. => false

/-- Forgets the formatting elements up to and with the latest marker. -/
def clearToMarker (b : Builder) : Builder :=
  { b with formatting := (b.formatting.dropWhile fun f => !isMarker f).drop 1 }

def forget (b : Builder) (id : NodeId) : Builder :=
  { b with formatting := b.formatting.filter fun
      | .marker => true
      | .element i _ => i ≠ id }

def isMarkerOrOpen (b : Builder) : Formatting → Bool
  | .marker => true
  | .element id _ => b.opened.contains id

/-- A new open element of a tag, and its entry. -/
def openFormatting (b : Builder) (tag : Tag) : Builder :=
  let (b, id) := b.insert (htmlElement tag)
  { b.push id with formatting := .element id tag :: b.formatting }

/-- Opens the latest formatting elements again that are not open any more. -/
def reconstruct (b : Builder) : Builder :=
  let cut := b.formatting.takeWhile fun f => !b.isMarkerOrOpen f
  let kept := b.formatting.dropWhile fun f => !b.isMarkerOrOpen f
  cut.reverse.foldl (fun b f =>
    match f with
    | .marker => b
    | .element _ tag => b.openFormatting tag) { b with formatting := kept }

/-- The entries behind the latest marker. -/
def sinceMarker (b : Builder) : List (NodeId × Tag) :=
  (b.formatting.takeWhile fun f => !isMarker f).filterMap fun
    | .marker => none
    | .element id tag => some (id, tag)

def sameTag (a b : Tag) : Bool :=
  a.name = b.name && a.attributes.length = b.attributes.length &&
    a.attributes.all b.attributes.contains

/-- A new formatting element. Of four with the same tag the earliest is forgotten. -/
def startFormatting (b : Builder) (tag : Tag) : Builder :=
  let same := b.sinceMarker.filter fun e => sameTag tag e.2
  match same.getLast? with
  | some (earliest, _) => (if 3 ≤ same.length then b.forget earliest else b).openFormatting tag
  | none => b.openFormatting tag

/-- Any other end tag closes the innermost element of its name, unless a special
element is in between. -/
def closeInBody (b : Builder) (name : String) : Builder :=
  let blocked (id : NodeId) : Bool := b.isA isSpecial id || b.isA (isNamed name) id
  match b.opened.find? blocked with
  | some id =>
    if b.isA (isNamed name) id then
      { b with opened := (b.opened.dropWhile (· ≠ id)).drop 1 }
    else b
  | none => b

def replaceEntry (id : NodeId) (new : Formatting) (fs : List Formatting) : List Formatting :=
  fs.map fun
    | .marker => .marker
    | .element i tag => if i = id then new else .element i tag

/-- Puts an entry behind another one, which stands later in the list. -/
def entryAfter (id : NodeId) (new : Formatting) : List Formatting → List Formatting
  | [] => []
  | .element i tag :: fs =>
    if i = id then new :: .element i tag :: fs else .element i tag :: entryAfter id new fs
  | .marker :: fs => .marker :: entryAfter id new fs

def tagOf? (b : Builder) (id : NodeId) : Option Tag :=
  b.formatting.findSome? fun
    | .marker => none
    | .element i tag => if i = id then some tag else none

def moveInto (b : Builder) (id parent : NodeId) : Builder :=
  { b with table := (b.table.remove id).append parent (.node id) }

/-- The chain of elements between a block and the formatting element around it is
made anew around what was moved so far: at most three of them, and only those that
are formatting elements. Answers with the outermost node of the new chain and the
latest place of the entry, if it changes. -/
def rebuildChain (b : Builder) (block : NodeId) (round : Nat) (moved : NodeId)
    (place : Option NodeId) : List NodeId → Builder × NodeId × Option NodeId
  | [] => (b, moved, place)
  | id :: outward =>
    match if round < 3 then b.tagOf? id else none with
    | none => ((b.forget id).close id).rebuildChain block (round + 1) moved place outward
    | some tag =>
      let (b, new) := b.create (.element (htmlElement tag))
      let b := { b with
        opened := b.opened.replace id new
        formatting := replaceEntry id (.element new tag) b.formatting }
      let place := if moved = block then some new else place
      (b.moveInto moved new).rebuildChain block (round + 1) new place outward

/-- Splits a formatting element around the innermost block in it. -/
def split (b : Builder) (id : NodeId) (tag : Tag) (block : NodeId) : Builder :=
  let inner := b.opened.takeWhile (· ≠ id)
  let outside := ((b.opened.dropWhile (· ≠ id)).drop 1).head?.getD Dom.Table.documentId
  let between := (inner.dropWhile (· ≠ block)).drop 1
  let (b, moved, place) := b.rebuildChain block 0 block none between
  let b := { b with table := b.table.remove moved }
  let b := b.put outside (.node moved)
  let (b, new) := b.create (.element (htmlElement tag))
  let b := { b with table := (b.table.reparent block new).append block (.node new) }
  let entry := Formatting.element new tag
  let b :=
    match place with
    | none => { b with formatting := replaceEntry id entry b.formatting }
    | some other => { b with formatting := entryAfter other entry b.formatting }.forget id
  let b := b.close id
  { b with opened := b.opened.flatMap fun o => if o = block then [new, o] else [o] }

/-- One round for the end tag of a formatting element; `true` asks for another. -/
def closeFormattingOnce (b : Builder) (name : String) : Builder × Bool :=
  match b.sinceMarker.find? fun e => e.2.name = name with
  | none => (b.closeInBody name, false)
  | some (id, tag) =>
    if !b.opened.contains id then (b.forget id, false)
    else if !b.inScope endsScope (· = id) then (b, false)
    else
      let inner := b.opened.takeWhile (· ≠ id)
      match inner.reverse.find? (b.isA isSpecial) with
      | none =>
        ({ b.forget id with opened := (b.opened.dropWhile (· ≠ id)).drop 1 }, false)
      | some block => (b.split id tag block, true)

def closeFormattingRounds (b : Builder) (name : String) : Nat → Builder
  | 0 => b
  | rounds + 1 =>
    match b.closeFormattingOnce name with
    | (b, true) => b.closeFormattingRounds name rounds
    | (b, false) => b

/-- The end tag of a formatting element: at most eight rounds. -/
def closeFormatting (b : Builder) (name : String) : Builder :=
  let listed (id : NodeId) : Bool := (b.tagOf? id).isSome
  if b.currentIs (isNamed name) && !b.opened.head?.any listed then b.pop
  else b.closeFormattingRounds name 8

/-- A link in a link ends the outer one. -/
def endOuterLink (b : Builder) : Builder :=
  match b.sinceMarker.find? fun e => b.isA (isNamed "a") e.1 with
  | none => b
  | some (id, _) => ((b.closeFormatting "a").forget id).close id

end AuthoredStyle.Html.Builder
