import AuthoredStyle.Html.Rules.Basic

/-!
# Rules outside of the body

Before the head, in it, behind it and behind the body. Elements that the document
leaves out are opened as soon as something needs them.
-/

namespace AuthoredStyle.Html.Rules

open Builder

/-- End tags that open a missing element rather than being dropped. -/
def opensMissing (tag : Tag) : Bool := ["head", "body", "html", "br"].contains tag.name

def initial (b : Builder) : Item → Outcome
  | .comment s => (b.addCommentTo Dom.Table.documentId s).done
  | .text s => if isFillerText s then b.ignore else { b with readsOldWay := true }.again .beforeHtml
  | _ => { b with readsOldWay := true }.again .beforeHtml

def beforeHtml (b : Builder) (item : Item) : Outcome :=
  let missing := (b.openRoot []).again .beforeHead
  match item with
  | .comment s => (b.addCommentTo Dom.Table.documentId s).done
  | .text s => if isFillerText s then b.ignore else missing
  | .opening tag =>
    if tag.name = "html" then (b.openRoot tag.attributes).turn .beforeHead else missing
  | .closing tag => if opensMissing tag then missing else b.ignore
  | _ => missing

def openHead (b : Builder) (tag : Tag) : Builder :=
  let b := b.openTag tag
  { b with head := b.opened.head? }

def beforeHead (b : Builder) (item : Item) : Outcome :=
  let missing := (openHead b { name := "head" }).again .inHead
  match item with
  | .comment s => (b.addComment s).done
  | .text s => if isFillerText s then b.ignore else missing
  | .opening tag =>
    match tag.name with
    | "html" => b.byRules .inBody
    | "head" => (openHead b tag).turn .inHead
    | _ => missing
  | .closing tag => if opensMissing tag then missing else b.ignore
  | _ => missing

def inHead (b : Builder) (item : Item) : Outcome :=
  let left := b.pop.again .afterHead
  match item with
  | .comment s => (b.addComment s).done
  | .text s => if isFillerText s then (b.addText s).done else left
  | .opening tag =>
    if isHeadContent item || tag.name = "noscript" then (b.headContent item).done
    else
      match tag.name with
      | "html" => b.byRules .inBody
      | "head" => b.ignore
      | _ => left
  | .closing tag =>
    match tag.name with
    | "template" => (b.headContent item).done
    | "head" => b.pop.turn .afterHead
    | _ => if opensMissing tag then left else b.ignore
  | _ => left

/-- Head content behind the head still goes into it. -/
def intoHead (b : Builder) (item : Item) : Builder :=
  match b.head with
  | some head => ((b.push head).headContent item).close head
  | none => b.headContent item

def afterHead (b : Builder) (item : Item) : Outcome :=
  let missing := (b.openNamed "body").again .inBody
  match item with
  | .comment s => (b.addComment s).done
  | .text s => if isFillerText s then (b.addText s).done else missing
  | .opening tag =>
    if isHeadContent item then (intoHead b item).done
    else
      match tag.name with
      | "html" => b.byRules .inBody
      | "body" => (b.openTag tag).noFrameset.turn .inBody
      | "frameset" => (b.openTag tag).turn .inFrameset
      | "head" => b.ignore
      | _ => missing
  | .closing tag =>
    match tag.name with
    | "template" => (b.headContent item).done
    | "head" => b.ignore
    | _ => if opensMissing tag then missing else b.ignore
  | _ => missing

def afterBody (b : Builder) (item : Item) : Outcome :=
  match item with
  | .comment s => (b.addCommentTo (b.root?.getD Dom.Table.documentId) s).done
  | .text s => if isFillerText s then b.byRules .inBody else b.again .inBody
  | .opening tag => if tag.name = "html" then b.byRules .inBody else b.again .inBody
  | .closing tag => if tag.name = "html" then b.turn .afterAfterBody else b.again .inBody
  | .null => b.again .inBody
  | .finish => b.done

def afterAfterBody (b : Builder) (item : Item) : Outcome :=
  match item with
  | .comment s => (b.addCommentTo Dom.Table.documentId s).done
  | .text s => if isFillerText s then b.byRules .inBody else b.again .inBody
  | .opening tag => if tag.name = "html" then b.byRules .inBody else b.again .inBody
  | .closing _ | .null => b.again .inBody
  | .finish => b.done

/-! ## Frame sets -/

def inFrameset (b : Builder) (item : Item) : Outcome :=
  match item with
  | .comment s => (b.addComment s).done
  | .text s => if isFillerText s then (b.addText s).done else b.ignore
  | .opening tag =>
    match tag.name with
    | "html" => b.byRules .inBody
    | "frameset" => (b.openTag tag).done
    | "frame" => (b.insertTag tag).done
    | "noframes" => (b.headContent item).done
    | _ => b.ignore
  | .closing tag =>
    if tag.name = "frameset" && 1 < b.opened.length then
      let b := b.pop
      if b.currentIs (isNamed "frameset") then b.done else b.turn .afterFrameset
    else b.ignore
  | .null | .finish => b.done

def afterFrameset (b : Builder) (item : Item) : Outcome :=
  match item with
  | .comment s => (b.addComment s).done
  | .text s => if isFillerText s then (b.addText s).done else b.ignore
  | .opening tag =>
    match tag.name with
    | "html" => b.byRules .inBody
    | "noframes" => (b.headContent item).done
    | _ => b.ignore
  | .closing tag => if tag.name = "html" then b.turn .afterAfterFrameset else b.ignore
  | .null | .finish => b.done

def afterAfterFrameset (b : Builder) (item : Item) : Outcome :=
  match item with
  | .comment s => (b.addCommentTo Dom.Table.documentId s).done
  | .text s => if isFillerText s then b.byRules .inBody else b.ignore
  | .opening tag =>
    match tag.name with
    | "html" => b.byRules .inBody
    | "noframes" => (b.headContent item).done
    | _ => b.ignore
  | .closing _ | .null | .finish => b.done

end AuthoredStyle.Html.Rules
