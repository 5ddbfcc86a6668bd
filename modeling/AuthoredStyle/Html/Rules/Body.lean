import AuthoredStyle.Html.Rules.Basic

/-!
# Rules in the body

Most content is read by these rules. Open elements are closed by what follows them
where the language lets their end tags be left out, and formatting elements go on
across blocks.
-/

namespace AuthoredStyle.Html.Rules

open Builder

def isHidden (tag : Tag) : Bool :=
  tag.attributes.any fun a => a.1 = "type" && Dom.Element.lowered a.2 = "hidden"

def bodyText (b : Builder) (s : String) : Builder :=
  let b := b.reconstruct
  (if isFillerText s then b else b.noFrameset).addText s

/-- The nearest open item of a list, if no block is nearer. -/
def openListItem? (b : Builder) (names : List String) : List Dom.NodeId → Option String
  | [] => none
  | id :: below =>
    let e := b.element id
    if isOneOf names e then some e.name
    else if isSpecial e && !isOneOf ["address", "div", "p"] e then none
    else openListItem? b names below

/-- A list item ends the one before it. -/
def openListItem (b : Builder) (tag : Tag) : Builder :=
  let b := b.noFrameset
  let names := if tag.name = "li" then ["li"] else ["dd", "dt"]
  let b :=
    match openListItem? b names b.opened with
    | some name => (b.closeImpliedExcept name).closeNamed name
    | none => b
  b.endParagraph.openTag tag

def openHeading (b : Builder) (tag : Tag) : Builder :=
  let b := b.endParagraph
  (if b.currentIs (isOneOf headings) then b.pop else b).openTag tag

def openForm (b : Builder) (tag : Tag) : Builder :=
  let inTemplate := b.hasOpen "template"
  if b.form.isSome && !inTemplate then b
  else
    let b := b.endParagraph.openTag tag
    if inTemplate then b else { b with form := b.opened.head? }

def closeForm (b : Builder) : Builder :=
  if b.hasOpen "template" then
    if b.inScopeNamed endsScope "form" then (b.closeImplied impliedEnds).closeNamed "form" else b
  else
    match b.form with
    | none => b
    | some form =>
      let b := { b with form := none }
      if b.inScope endsScope (· = form) then (b.closeImplied impliedEnds).close form else b

def openButton (b : Builder) (tag : Tag) : Builder :=
  let b :=
    if b.inScopeNamed endsScope "button" then (b.closeImplied impliedEnds).closeNamed "button"
    else b
  (b.reconstruct.openTag tag).noFrameset

def openSelect (b : Builder) (tag : Tag) : Builder :=
  let inTable := [Mode.inTable, .inCaption, .inTableBody, .inRow, .inCell].contains b.mode
  { (b.reconstruct.openTag tag).noFrameset with
    mode := if inTable then .inSelectInTable else .inSelect }

def openFrameset (b : Builder) (tag : Tag) : Builder :=
  match b.framesetAllowed, b.body? with
  | true, some body =>
    let b := { b with table := b.table.remove body, opened := b.opened.drop (b.opened.length - 1) }
    { b.openTag tag with mode := .inFrameset }
  | _, _ => b

def openAnnotation (b : Builder) (except : List String) (tag : Tag) : Builder :=
  let b :=
    if b.inScopeNamed endsScope "ruby" then
      b.closeImplied (impliedEnds.filter (!except.contains ·))
    else b
  b.openTag tag

def insertInText (b : Builder) (tag : Tag) : Builder :=
  let b := b.reconstruct.insertTag tag
  if tag.name = "input" && isHidden tag then b else b.noFrameset

def addToBody (b : Builder) (tag : Tag) : Builder :=
  match b.body? with
  | some body =>
    if 1 < b.opened.length && !b.hasOpen "template" then b.noFrameset.addAttributes body tag else b
  | none => b

def addToRoot (b : Builder) (tag : Tag) : Builder :=
  match b.root? with
  | some root => if b.hasOpen "template" then b else b.addAttributes root tag
  | none => b

/-- An element in which formatting starts afresh. -/
def openObject (b : Builder) (tag : Tag) : Builder :=
  ((b.reconstruct.openTag tag).addMarker).noFrameset

def bodyOpening (b : Builder) (tag : Tag) : Builder :=
  let name := tag.name
  if blocks.contains name then b.endParagraph.openTag tag
  else if headings.contains name then openHeading b tag
  else if formattingNames.contains name then b.reconstruct.startFormatting tag
  else if emptyInText.contains name then insertInText b tag
  else if misplaced.contains name then b.ignore.1
  else
    match name with
    | "html" => addToRoot b tag
    | "body" => addToBody b tag
    | "frameset" => openFrameset b tag
    | "pre" | "listing" =>
      { (b.endParagraph.openTag tag).noFrameset with dropsLineFeed := true }
    | "form" => openForm b tag
    | "li" | "dd" | "dt" => openListItem b tag
    | "plaintext" => { b.endParagraph.openTag tag with kind := .plain }
    | "button" => openButton b tag
    | "a" => (b.endOuterLink.reconstruct).startFormatting tag
    | "nobr" =>
      let b := b.reconstruct
      let b := if b.inScopeNamed endsScope name then (b.closeFormatting name).reconstruct else b
      b.startFormatting tag
    | "applet" | "marquee" | "object" => openObject b tag
    | "table" =>
      let b := if b.readsOldWay then b else b.endParagraph
      { (b.openTag tag).noFrameset with mode := .inTable }
    | "param" | "source" | "track" => b.insertTag tag
    | "hr" => (b.endParagraph.insertTag tag).noFrameset
    | "image" => insertInText b { tag with name := "img" }
    | "textarea" => { b.noFrameset.openText tag (.escapable name) with dropsLineFeed := true }
    | "xmp" => (b.endParagraph.reconstruct.noFrameset).openText tag (.raw name)
    | "iframe" => b.noFrameset.openText tag (.raw name)
    | "noembed" | "noscript" => b.openText tag (.raw name)
    | "select" => openSelect b tag
    | "option" | "optgroup" =>
      (if b.currentIs (isNamed "option") then b.pop else b).reconstruct.openTag tag
    | "rb" | "rtc" => openAnnotation b [] tag
    | "rp" | "rt" => openAnnotation b ["rtc"] tag
    | "math" => b.reconstruct.openForeign .mathml tag
    | "svg" => b.reconstruct.openForeign .svg tag
    | _ => b.reconstruct.openTag tag

/-- Closes an element with everything in it, if it is in reach. -/
def closeBlock (b : Builder) (name : String) : Builder :=
  if b.inScopeNamed endsScope name then (b.closeImplied impliedEnds).closeNamed name else b

def closeListItem (b : Builder) (ends : Dom.Element → Bool) (name : String) : Builder :=
  if b.inScopeNamed ends name then (b.closeImpliedExcept name).closeNamed name else b

def closeHeading (b : Builder) : Builder :=
  if b.inScope endsScope (b.isA (isOneOf headings)) then
    (b.closeImplied impliedEnds).popThrough (isOneOf headings)
  else b

def closeParagraphTag (b : Builder) : Builder :=
  (if b.inScopeNamed endsButtonScope "p" then b else b.openNamed "p").closeParagraph

def closeObject (b : Builder) (name : String) : Builder :=
  if b.inScopeNamed endsScope name then
    ((b.closeImplied impliedEnds).closeNamed name).clearToMarker
  else b

def bodyClosing (b : Builder) (tag : Tag) : Outcome :=
  let name := tag.name
  if closedBlocks.contains name then (closeBlock b name).done
  else if headings.contains name then (closeHeading b).done
  else if formattingNames.contains name then (b.closeFormatting name).done
  else
    match name with
    | "body" => if b.inScopeNamed endsScope "body" then b.turn .afterBody else b.ignore
    | "html" => if b.inScopeNamed endsScope "body" then b.again .afterBody else b.ignore
    | "form" => (closeForm b).done
    | "p" => (closeParagraphTag b).done
    | "li" => (closeListItem b endsListScope name).done
    | "dd" | "dt" => (closeListItem b endsScope name).done
    | "a" | "nobr" => (b.closeFormatting name).done
    | "applet" | "marquee" | "object" => (closeObject b name).done
    | "br" => (insertInText b { name := "br" }).done
    | _ => (b.closeInBody name).done

def inBody (b : Builder) (item : Item) : Outcome :=
  if isHeadContent item then (b.headContent item).done
  else
    match item with
    | .null => b.ignore
    | .text s => (bodyText b s).done
    | .comment s => (b.addComment s).done
    | .opening tag => (bodyOpening b tag).done
    | .closing tag => bodyClosing b tag
    | .finish => if b.templates.isEmpty then b.done else b.byRules .inTemplate

/-- Text with its end tag; only that tag is read as one. -/
def inText (b : Builder) (item : Item) : Outcome :=
  match item with
  | .text s => (b.addText s).done
  | .finish => b.pop.again b.outer
  | .closing _ => b.pop.turn b.outer
  | _ => b.ignore

end AuthoredStyle.Html.Rules
