import AuthoredStyle.Dom.Element

/-!
# Groups of element names

Tree construction treats many elements alike. The groups here name them; an
element is in a group only if it is an HTML element, unless something else is
said.
-/

namespace AuthoredStyle.Html

open Dom (Element)

/-- An HTML element with one of the names. -/
def isOneOf (names : List String) (e : Element) : Bool :=
  e.space = .html && names.contains e.name

def isNamed (name : String) (e : Element) : Bool := e.space = .html && e.name = name

/-- MathML elements whose text is read as HTML. -/
def holdsMathText (e : Element) : Bool :=
  e.space = .mathml && ["mi", "mo", "mn", "ms", "mtext"].contains e.name

/-- SVG elements whose content is read as HTML. -/
def holdsHtml (e : Element) : Bool :=
  e.space = .svg && ["foreignObject", "desc", "title"].contains e.name

def headings : List String := ["h1", "h2", "h3", "h4", "h5", "h6"]

def tableParts : List String := ["tbody", "tfoot", "thead"]

def cells : List String := ["td", "th"]

/-- Elements whose end tags may be left out. -/
def impliedEnds : List String :=
  ["dd", "dt", "li", "option", "optgroup", "p", "rb", "rp", "rt", "rtc"]

/-- The same within a template. -/
def thoroughEnds : List String :=
  impliedEnds ++ ["caption", "colgroup", "tbody", "td", "tfoot", "th", "thead", "tr"]

/-- Elements that no end tag of another element reaches through. -/
def specialNames : List String :=
  ["address", "applet", "area", "article", "aside", "base", "basefont", "bgsound", "blockquote",
   "body", "br", "button", "caption", "center", "col", "colgroup", "dd", "details", "dir", "div",
   "dl", "dt", "embed", "fieldset", "figcaption", "figure", "footer", "form", "frame", "frameset",
   "h1", "h2", "h3", "h4", "h5", "h6", "head", "header", "hgroup", "hr", "html", "iframe", "img",
   "input", "isindex", "li", "link", "listing", "main", "marquee", "menu", "meta", "nav",
   "noembed", "noframes", "noscript", "object", "ol", "p", "param", "plaintext", "pre", "script",
   "section", "select", "source", "style", "summary", "table", "tbody", "td", "template",
   "textarea", "tfoot", "th", "thead", "title", "tr", "track", "ul", "wbr", "xmp"]

def isSpecial (e : Element) : Bool :=
  isOneOf specialNames e || holdsMathText e || holdsHtml e

/-! ## Scopes: the elements that a search for an open element stops at -/

def endsScope (e : Element) : Bool :=
  isOneOf ["applet", "caption", "html", "table", "td", "th", "marquee", "object", "template"] e
    || holdsMathText e || holdsHtml e

def endsListScope (e : Element) : Bool := endsScope e || isOneOf ["ol", "ul"] e

def endsButtonScope (e : Element) : Bool := endsScope e || isNamed "button" e

def endsTableScope (e : Element) : Bool := isOneOf ["html", "table", "template"] e

def endsSelectScope (e : Element) : Bool := !isOneOf ["optgroup", "option"] e

/-! ## Groups of tags -/

/-- Elements that belong into the head wherever they stand. -/
def headContent : List String :=
  ["base", "basefont", "bgsound", "link", "meta", "noframes", "script", "style", "template",
   "title"]

/-- Elements that end an open paragraph. -/
def blocks : List String :=
  ["address", "article", "aside", "blockquote", "center", "details", "dialog", "dir", "div", "dl",
   "fieldset", "figcaption", "figure", "footer", "header", "hgroup", "main", "menu", "nav", "ol",
   "p", "search", "section", "summary", "ul"]

/-- Elements whose end tag closes everything in them. -/
def closedBlocks : List String :=
  ["address", "article", "aside", "blockquote", "button", "center", "details", "dialog", "dir",
   "div", "dl", "fieldset", "figcaption", "figure", "footer", "header", "hgroup", "listing",
   "main", "menu", "nav", "ol", "pre", "search", "section", "summary", "ul"]

/-- Elements that are opened again after a block has cut them. -/
def formattingNames : List String :=
  ["b", "big", "code", "em", "font", "i", "s", "small", "strike", "strong", "tt", "u"]

/-- Elements without content that stand in text. -/
def emptyInText : List String := ["area", "br", "embed", "img", "keygen", "wbr", "input"]

/-- Elements that have a place only in a table, a frame set or the document itself. -/
def misplaced : List String :=
  ["caption", "col", "colgroup", "frame", "head", "tbody", "td", "tfoot", "th", "thead", "tr"]

/-- HTML elements that end foreign content. -/
def endsForeign : List String :=
  ["b", "big", "blockquote", "body", "br", "center", "code", "dd", "div", "dl", "dt", "em",
   "embed", "h1", "h2", "h3", "h4", "h5", "h6", "head", "hr", "i", "img", "li", "listing", "menu",
   "meta", "nobr", "ol", "p", "pre", "ruby", "s", "small", "span", "strong", "strike", "sub",
   "sup", "table", "tt", "u", "ul", "var"]

end AuthoredStyle.Html
