import AuthoredStyle.Html.Rules.Body

/-!
# Rules in tables, selections and templates

A table opens its missing parts by itself and puts in front of itself whatever has
no place in it. A selection holds options and nothing else; a template goes on in
the mode that its first child asks for.
-/

namespace AuthoredStyle.Html.Rules

open Builder

/-- By the rules of the body, in front of the table where it has no place in it. -/
def foster (b : Builder) : Outcome := { b with fostering := true }.byRules .inBody

def toTable (b : Builder) : Builder := b.popTo endsTableScope

def toTableBody (b : Builder) : Builder :=
  b.popTo (isOneOf (["template", "html"] ++ tableParts))

def toRow (b : Builder) : Builder := b.popTo (isOneOf ["tr", "template", "html"])

def tableText (b : Builder) : Outcome :=
  if b.currentIs (isOneOf ("table" :: "tr" :: tableParts)) then
    { b with outer := b.mode, pending := [] }.again .inTableText
  else foster b

def formInTable (b : Builder) (tag : Tag) : Builder :=
  if b.hasOpen "template" || b.form.isSome then b
  else
    let (b, id) := b.insert (htmlElement tag)
    { b with form := some id }

def tableOpening (b : Builder) (tag : Tag) : Outcome :=
  match tag.name with
  | "caption" => (((toTable b).addMarker).openTag tag).turn .inCaption
  | "colgroup" => ((toTable b).openTag tag).turn .inColumnGroup
  | "col" => ((toTable b).openNamed "colgroup").again .inColumnGroup
  | "tbody" | "tfoot" | "thead" => ((toTable b).openTag tag).turn .inTableBody
  | "td" | "th" | "tr" => ((toTable b).openNamed "tbody").again .inTableBody
  | "table" =>
    if b.inScopeNamed endsTableScope "table" then ((b.closeNamed "table").resetMode, .again)
    else b.ignore
  | "style" | "script" | "template" => (b.headContent (.opening tag)).done
  | "input" => if isHidden tag then (b.insertTag tag).done else foster b
  | "form" => (formInTable b tag).done
  | _ => foster b

def tableClosing (b : Builder) (tag : Tag) : Outcome :=
  match tag.name with
  | "table" =>
    if b.inScopeNamed endsTableScope "table" then (b.closeNamed "table").resetMode.done
    else b.ignore
  | "body" | "caption" | "col" | "colgroup" | "html" | "tbody" | "td" | "tfoot" | "th" | "thead"
  | "tr" => b.ignore
  | "template" => (b.headContent (.closing tag)).done
  | _ => foster b

def inTable (b : Builder) (item : Item) : Outcome :=
  match item with
  | .text _ | .null => tableText b
  | .comment s => (b.addComment s).done
  | .opening tag => tableOpening b tag
  | .closing tag => tableClosing b tag
  | .finish => b.byRules .inBody

/-- White space stays in the table, all other text goes in front of it. -/
def placeTableText (b : Builder) : Builder :=
  let texts := b.pending.reverse
  let place :=
    if texts.all isFillerText then addText
    else fun b s => { bodyText { b with fostering := true } s with fostering := false }
  { texts.foldl place b with pending := [] }

def inTableText (b : Builder) (item : Item) : Outcome :=
  match item with
  | .null => b.ignore
  | .text s => { b with pending := s :: b.pending }.done
  | _ => (placeTableText b).again b.outer

/-- Whether a tag belongs to the table around a caption, a cell or a selection. -/
def isTablePart : Item → Bool
  | .opening t => t.name ≠ "frame" && t.name ≠ "head" && misplaced.contains t.name
  | _ => false

def closes (names : List String) : Item → Bool
  | .closing t => names.contains t.name
  | _ => false

def inCaption (b : Builder) (item : Item) : Outcome :=
  if isTablePart item || closes ["table", "caption"] item then
    if b.inScopeNamed endsTableScope "caption" then
      let b := ((b.closeImplied impliedEnds).closeNamed "caption").clearToMarker
      if closes ["caption"] item then b.turn .inTable else b.again .inTable
    else b.ignore
  else if closes
      ["body", "col", "colgroup", "html", "tbody", "td", "tfoot", "th", "thead", "tr"] item then
    b.ignore
  else b.byRules .inBody

def inColumnGroup (b : Builder) (item : Item) : Outcome :=
  let leave (how : Builder → Mode → Outcome) : Outcome :=
    if b.currentIs (isNamed "colgroup") then how b.pop .inTable else b.ignore
  if isTemplateTag item then (b.headContent item).done
  else
    match item with
    | .text s => if isFillerText s then (b.addText s).done else leave again
    | .comment s => (b.addComment s).done
    | .opening tag =>
      match tag.name with
      | "html" => b.byRules .inBody
      | "col" => (b.insertTag tag).done
      | _ => leave again
    | .closing tag =>
      match tag.name with
      | "colgroup" => leave turn
      | "col" => b.ignore
      | _ => leave again
    | .finish => b.byRules .inBody
    | .null => leave again

def inTableBody (b : Builder) (item : Item) : Outcome :=
  let leave : Outcome :=
    if b.inScope endsTableScope (b.isA (isOneOf ["table", "tbody", "tfoot"])) then
      (toTableBody b).pop.again .inTable
    else b.ignore
  match item with
  | .opening tag =>
    match tag.name with
    | "tr" => ((toTableBody b).openTag tag).turn .inRow
    | "td" | "th" => ((toTableBody b).openNamed "tr").again .inRow
    | "caption" | "col" | "colgroup" | "tbody" | "tfoot" | "thead" => leave
    | _ => b.byRules .inTable
  | .closing tag =>
    match tag.name with
    | "tbody" | "tfoot" | "thead" =>
      if b.inScopeNamed endsTableScope tag.name then (toTableBody b).pop.turn .inTable
      else b.ignore
    | "table" => leave
    | "body" | "caption" | "col" | "colgroup" | "html" | "td" | "th" | "tr" => b.ignore
    | _ => b.byRules .inTable
  | _ => b.byRules .inTable

def inRow (b : Builder) (item : Item) : Outcome :=
  let leave (how : Builder → Mode → Outcome) : Outcome :=
    if b.inScopeNamed endsTableScope "tr" then how (toRow b).pop .inTableBody else b.ignore
  match item with
  | .opening tag =>
    match tag.name with
    | "td" | "th" => (((toRow b).openTag tag).addMarker).turn .inCell
    | "caption" | "col" | "colgroup" | "tbody" | "tfoot" | "thead" | "tr" => leave again
    | _ => b.byRules .inTable
  | .closing tag =>
    match tag.name with
    | "tr" => leave turn
    | "table" => leave again
    | "tbody" | "tfoot" | "thead" =>
      if b.inScopeNamed endsTableScope tag.name then leave again else b.ignore
    | "body" | "caption" | "col" | "colgroup" | "html" | "td" | "th" => b.ignore
    | _ => b.byRules .inTable
  | _ => b.byRules .inTable

def closeCell (b : Builder) : Builder :=
  ((b.closeImplied impliedEnds).popThrough (isOneOf cells)).clearToMarker

def inCell (b : Builder) (item : Item) : Outcome :=
  if isTablePart item then
    if b.inScope endsTableScope (b.isA (isOneOf cells)) then (closeCell b).again .inRow
    else b.ignore
  else
    match item with
    | .closing tag =>
      match tag.name with
      | "td" | "th" =>
        if b.inScopeNamed endsTableScope tag.name then
          (((b.closeImplied impliedEnds).closeNamed tag.name).clearToMarker).turn .inRow
        else b.ignore
      | "body" | "caption" | "col" | "colgroup" | "html" => b.ignore
      | "table" | "tbody" | "tfoot" | "thead" | "tr" =>
        if b.inScopeNamed endsTableScope tag.name then (closeCell b).again .inRow else b.ignore
      | _ => b.byRules .inBody
    | _ => b.byRules .inBody

/-! ## Selections -/

def endOption (b : Builder) : Builder := if b.currentIs (isNamed "option") then b.pop else b

def endGroup (b : Builder) : Builder :=
  let b := endOption b
  if b.currentIs (isNamed "optgroup") then b.pop else b

/-- An option that is last in its group ends with it. -/
def closeGroup (b : Builder) : Builder :=
  let inGroup := (b.opened.drop 1).head?.any (b.isA (isNamed "optgroup"))
  let b := if inGroup then endOption b else b
  if b.currentIs (isNamed "optgroup") then b.pop else b

def leaveSelect (b : Builder) : Builder := (b.closeNamed "select").resetMode

def inSelect (b : Builder) (item : Item) : Outcome :=
  let selecting := b.inScopeNamed endsSelectScope "select"
  if isTemplateTag item then (b.headContent item).done
  else
    match item with
    | .text s => (b.addText s).done
    | .null => b.ignore
    | .comment s => (b.addComment s).done
    | .opening tag =>
      match tag.name with
      | "html" => b.byRules .inBody
      | "option" => ((endOption b).openTag tag).done
      | "optgroup" => ((endGroup b).openTag tag).done
      | "hr" => ((endGroup b).insertTag tag).done
      | "select" => if selecting then (leaveSelect b).done else b.ignore
      | "input" | "keygen" | "textarea" => if selecting then (leaveSelect b, .again) else b.ignore
      | "script" => (b.headContent item).done
      | _ => b.ignore
    | .closing tag =>
      match tag.name with
      | "optgroup" => (closeGroup b).done
      | "option" => (endOption b).done
      | "select" => if selecting then (leaveSelect b).done else b.ignore
      | _ => b.ignore
    | .finish => b.byRules .inBody

def inSelectInTable (b : Builder) (item : Item) : Outcome :=
  let parts := ["caption", "table", "tbody", "tfoot", "thead", "tr", "td", "th"]
  match item with
  | .opening tag => if parts.contains tag.name then (leaveSelect b, .again) else b.byRules .inSelect
  | .closing tag =>
    if parts.contains tag.name then
      if b.inScopeNamed endsTableScope tag.name then (leaveSelect b, .again) else b.ignore
    else b.byRules .inSelect
  | _ => b.byRules .inSelect

/-! ## Templates -/

def turnTemplate (b : Builder) (mode : Mode) : Outcome :=
  { b with templates := mode :: b.templates.drop 1 }.again mode

def inTemplate (b : Builder) (item : Item) : Outcome :=
  if isHeadContent item then (b.headContent item).done
  else
    match item with
    | .text _ | .comment _ => b.byRules .inBody
    | .opening tag =>
      match tag.name with
      | "caption" | "colgroup" | "tbody" | "tfoot" | "thead" => turnTemplate b .inTable
      | "col" => turnTemplate b .inColumnGroup
      | "tr" => turnTemplate b .inTableBody
      | "td" | "th" => turnTemplate b .inRow
      | _ => turnTemplate b .inBody
    | .finish => if b.hasOpen "template" then (b.leaveTemplate, .again) else b.done
    | .closing _ | .null => b.ignore

end AuthoredStyle.Html.Rules
