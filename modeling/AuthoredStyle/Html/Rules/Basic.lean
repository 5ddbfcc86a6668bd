import AuthoredStyle.Html.Formatting

/-!
# Items and what a rule makes of them

Construction sees a document as a sequence of items. A rule changes the builder and
says how to go on: with the next item, with the same one in the mode that is now
set, or with the same one by the rules of another mode that is not entered.
-/

namespace AuthoredStyle.Html

inductive Item where
  | opening (tag : Tag)
  | closing (tag : Tag)
  | comment (content : String)
  | text (content : String)
  | null
  | finish
  deriving DecidableEq, Repr

inductive Action where
  | next
  | again
  | byRules (mode : Mode)
  deriving DecidableEq, Repr

abbrev Outcome := Builder × Action

/-- White space as documents have it. -/
def isFiller (c : Char) : Bool := isGap c || c = '\r'

def isFillerText (s : String) : Bool := s.toList.all isFiller

namespace Builder

def done (b : Builder) : Outcome := (b, .next)

def again (b : Builder) (mode : Mode) : Outcome := ({ b with mode := mode }, .again)

def byRules (b : Builder) (mode : Mode) : Outcome := (b, .byRules mode)

def turn (b : Builder) (mode : Mode) : Outcome := { b with mode := mode }.done

/-- An item without a place is dropped. -/
def ignore (b : Builder) : Outcome := b.done

end Builder

/-! ## Tags with the same rules in more than one mode -/

def isTemplateTag : Item → Bool
  | .opening t | .closing t => t.name = "template"
  | _ => false

/-- Tags of head content, which are read alike in most modes. -/
def isHeadContent : Item → Bool
  | .opening t => headContent.contains t.name
  | .closing t => t.name = "template"
  | _ => false

namespace Builder

def openTemplate (b : Builder) (tag : Tag) : Builder :=
  { b.openTag tag with
    formatting := .marker :: b.formatting
    framesetAllowed := false
    mode := .inTemplate
    templates := .inTemplate :: b.templates }

/-- Closes the innermost template. -/
def leaveTemplate (b : Builder) : Builder :=
  let b := (b.closeNamed "template").clearToMarker
  { b with templates := b.templates.drop 1 }.resetMode

/-- The rules for head content. -/
def headContent (b : Builder) : Item → Builder
  | .opening tag =>
    match tag.name with
    | "title" => b.openText tag (.escapable tag.name)
    | "noframes" | "style" | "noscript" => b.openText tag (.raw tag.name)
    | "script" => b.openText tag .script
    | "template" => b.openTemplate tag
    | _ => b.insertTag tag
  | .closing _ => if b.hasOpen "template" then (b.closeImplied thoroughEnds).leaveTemplate else b
  | _ => b

end Builder

end AuthoredStyle.Html
