import AuthoredStyle.Html.Rules.Basic

/-!
# Rules in foreign content

Within SVG and MathML every tag stands for an element of the same namespace. Some
HTML tags end foreign content, and some foreign elements hold HTML.
-/

namespace AuthoredStyle.Html

namespace Builder

/-- Whether an item is read by the rules of foreign content. -/
def readsForeign (b : Builder) (item : Item) : Bool :=
  match b.opened.head?.map b.element, item with
  | none, _ | _, .finish => false
  | some e, .opening tag =>
    e.space ≠ .html && !holdsHtml e &&
      !(holdsMathText e && !(["mglyph", "malignmark"].contains tag.name)) &&
      !(e.space = .mathml && e.name = "annotation-xml" && tag.name = "svg")
  | some e, .text _ | some e, .null => e.space ≠ .html && !holdsHtml e && !holdsMathText e
  | some e, .closing _ | some e, .comment _ => e.space ≠ .html

/-- Whether character data sections are read. -/
def inForeign (b : Builder) : Bool :=
  (b.opened.head?.map b.element).any fun e => e.space ≠ .html

/-- Closes foreign elements down to one that holds HTML. -/
def leaveForeign (b : Builder) : Builder :=
  b.popTo fun e => e.space = .html || holdsMathText e || holdsHtml e

end Builder

namespace Rules

def endsForeignContent (tag : Tag) : Bool :=
  endsForeign.contains tag.name ||
    (tag.name = "font" && tag.attributes.any fun a => ["color", "face", "size"].contains a.1)

/-- The foreign element that an end tag closes, if it comes before an HTML element;
the current element is looked at whatever it is. -/
def foreignClosing (b : Builder) (name : String) : (first : Bool) → List Dom.NodeId → Outcome
  | _, [] | _, [_] => b.done
  | first, id :: below =>
    let e := b.element id
    if !first && e.space = .html then b.byRules b.mode
    else if Dom.Element.lowered e.name = name then { b with opened := below }.done
    else foreignClosing b name false below

def inForeign (b : Builder) (item : Item) : Outcome :=
  match item with
  | .null => (b.addText (String.singleton replacement)).done
  | .text s => ((if isFillerText s then b else b.noFrameset).addText s).done
  | .comment s => (b.addComment s).done
  | .opening tag =>
    if endsForeignContent tag then b.leaveForeign.byRules b.mode
    else (b.openForeign (b.element b.current).space tag).done
  | .closing tag =>
    if tag.name = "br" || tag.name = "p" then b.leaveForeign.byRules b.mode
    else foreignClosing b tag.name true b.opened
  | .finish => b.done

end Rules

end AuthoredStyle.Html
