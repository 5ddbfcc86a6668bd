/-!
# Properties and what is known about them

The tables fix which properties are worth extracting, which carry colours or
are inherited, what a browser reports for a property nobody set, and which
longhands a shorthand covers. A property outside the first table is never
reported, whatever a stylesheet declares.
-/

namespace AuthoredStyle.Property

/-- Layout, box, text and colour properties; everything else is left out. -/
def important : List String :=
  ["display", "position", "top", "right", "bottom", "left", "z-index", "float", "clear", "width",
   "height", "min-width", "min-height", "max-width", "max-height", "margin", "margin-top",
   "margin-right", "margin-bottom", "margin-left", "padding", "padding-top", "padding-right",
   "padding-bottom", "padding-left", "box-sizing", "overflow", "overflow-x", "overflow-y",
   "border", "border-top", "border-right", "border-bottom", "border-left", "border-width",
   "border-style", "border-color", "border-radius", "outline", "outline-color", "box-shadow",
   "background", "background-color", "background-image", "background-size", "background-position",
   "background-repeat", "color", "font-family", "font-size", "font-weight", "font-style",
   "line-height", "letter-spacing", "text-align", "text-decoration", "text-decoration-color",
   "text-transform", "white-space", "vertical-align", "flex", "flex-direction", "flex-wrap",
   "flex-grow", "flex-shrink", "flex-basis", "justify-content", "align-items", "align-self", "gap",
   "row-gap", "column-gap", "grid-template-columns", "grid-template-rows", "opacity", "visibility",
   "transform", "transition", "cursor", "object-fit", "list-style", "content"]

/-- Properties whose values carry colours. -/
def coloured : List String :=
  ["color", "background", "background-color", "border", "border-top", "border-right",
   "border-bottom", "border-left", "border-color", "outline", "outline-color",
   "text-decoration-color", "box-shadow"]

/-- Properties a child takes from its parent when nothing sets them. -/
def inherited : List String :=
  ["color", "font-family", "font-size", "font-weight", "font-style", "line-height",
   "letter-spacing", "text-align", "text-transform", "white-space", "visibility", "cursor",
   "list-style"]

/-- Elements shown as blocks unless something says otherwise. -/
def blockTags : List String :=
  ["html", "body", "div", "section", "article", "aside", "nav", "header", "footer", "main", "p",
   "h1", "h2", "h3", "h4", "h5", "h6", "ul", "ol", "form", "figure", "blockquote", "pre",
   "address", "fieldset", "hr", "dl", "dd", "dt"]

/-- Elements that are never shown unless something says otherwise. -/
def hiddenTags : List String := ["head", "style", "script", "link", "meta", "title"]

def isImportant (property : String) : Bool := important.contains property

def isColoured (property : String) : Bool := coloured.contains property

def isInherited (property : String) : Bool := inherited.contains property

/-- Computed values that mean nothing was authored. -/
def defaults : String → List String
  | "position" => ["static"]
  | "top" | "right" | "bottom" | "left" => ["auto", "0px"]
  | "z-index" => ["auto"]
  | "float" | "clear" => ["none"]
  | "width" | "height" | "flex-basis" => ["auto"]
  | "min-width" | "min-height" => ["0px", "auto"]
  | "max-width" | "max-height" => ["none"]
  | "margin" | "padding" => ["0px", "0px 0px 0px 0px"]
  | "margin-top" | "margin-right" | "margin-bottom" | "margin-left" => ["0px"]
  | "padding-top" | "padding-right" | "padding-bottom" | "padding-left" => ["0px"]
  | "box-sizing" => ["content-box"]
  | "overflow" | "overflow-x" | "overflow-y" => ["visible"]
  | "border" | "border-top" | "border-right" | "border-bottom" | "border-left" =>
    ["0px none rgb(0, 0, 0)", "none", "0px"]
  | "border-width" => ["0px"]
  | "border-style" => ["none"]
  | "border-radius" => ["0px"]
  | "outline" => ["rgb(0, 0, 0) none 0px", "none"]
  | "box-shadow" => ["none"]
  | "background" => ["rgba(0, 0, 0, 0) none repeat scroll 0% 0% / auto padding-box border-box"]
  | "background-color" => ["rgba(0, 0, 0, 0)", "transparent"]
  | "background-image" => ["none"]
  | "background-size" => ["auto"]
  | "background-position" => ["0% 0%"]
  | "background-repeat" => ["repeat"]
  | "font-weight" => ["400", "normal"]
  | "font-style" => ["normal"]
  | "line-height" | "letter-spacing" => ["normal"]
  | "text-align" => ["start", "left"]
  | "text-decoration" => ["none", "none solid rgb(0, 0, 0)"]
  | "text-transform" => ["none"]
  | "white-space" => ["normal"]
  | "vertical-align" => ["baseline"]
  | "flex" => ["0 1 auto"]
  | "flex-direction" => ["row"]
  | "flex-wrap" => ["nowrap"]
  | "flex-grow" => ["0"]
  | "flex-shrink" => ["1"]
  | "justify-content" | "align-items" | "align-self" => ["normal", "auto"]
  | "gap" | "row-gap" | "column-gap" => ["normal", "0px"]
  | "grid-template-columns" | "grid-template-rows" => ["none"]
  | "opacity" => ["1"]
  | "visibility" => ["visible"]
  | "transform" => ["none"]
  | "transition" => ["all 0s ease 0s", "all"]
  | "cursor" => ["auto"]
  | "object-fit" => ["fill"]
  | "list-style" => ["outside none disc", "disc outside none"]
  | "content" => ["normal", "none"]
  | _ => []

def longhands : String → List String
  | "margin" => ["margin-top", "margin-right", "margin-bottom", "margin-left"]
  | "padding" => ["padding-top", "padding-right", "padding-bottom", "padding-left"]
  | "border" =>
    ["border-top", "border-right", "border-bottom", "border-left", "border-width", "border-style",
     "border-color"]
  | "background" =>
    ["background-color", "background-image", "background-size", "background-position",
     "background-repeat"]
  | "flex" => ["flex-grow", "flex-shrink", "flex-basis"]
  | "gap" => ["row-gap", "column-gap"]
  | "overflow" => ["overflow-x", "overflow-y"]
  | "outline" => ["outline-color"]
  | "text-decoration" => ["text-decoration-color"]
  | _ => []

def shorthands : List String := important.filter fun p => !(longhands p).isEmpty

/-- What is reported for an element when nothing sets or inherits the property. -/
def initial (tag property : String) : String :=
  match property with
  | "display" =>
    if blockTags.contains tag then "block"
    else if tag = "li" then "list-item"
    else if hiddenTags.contains tag then "none"
    else "inline"
  | "color" => "rgb(0, 0, 0)"
  | "font-size" => "16px"
  | "font-family" => "serif"
  | _ => (defaults property).headD ""

end AuthoredStyle.Property
