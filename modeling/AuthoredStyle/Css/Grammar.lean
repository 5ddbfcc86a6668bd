import AuthoredStyle.Css.Background
import AuthoredStyle.Css.Motion

/-!
# Properties and their values

A value that its property understands is written in that property's way; every other
value is kept, as is every value of an unknown property. Names of known properties
are in lower case and without a vendor's mark.
-/

namespace AuthoredStyle.Css

open Reader

/-! ## Tracks of a grid -/

def trackBreadth : Reader :=
  firstOf [keyword ["auto", "min-content", "max-content"], lengthPercentage, one fun
    | .token (.dimension n unit) =>
      if lowered unit = "fr" then some (dimensionText n.value "fr") else none
    | _ => none]

def lineNames : Reader := one fun
  | .block .square xs =>
    ((withoutGaps xs).mapM Component.ident?).map fun ns => "[" ++ spaced (ns.map identText) ++ "]"
  | _ => none

def trackFunction : Reader := one fun
  | .function name xs =>
    match lowered name, splitCommas (withoutGaps xs) with
    | "minmax", [low, high] => do
      return "minmax(" ++ (← whole? trackBreadth low) ++ ", " ++ (← whole? trackBreadth high) ++ ")"
    | "fit-content", [most] => do
      return "fit-content(" ++ (← whole? lengthPercentage most) ++ ")"
    | _, _ => none
  | _ => none

def track : Reader := firstOf [trackBreadth, trackFunction, lineNames]

def trackRepeat : Reader := one fun
  | .function name xs =>
    match lowered name, splitCommas (withoutGaps xs) with
    | "repeat", [count, tracks] => do
      let n ← whole? ((keyword ["auto-fill", "auto-fit"]).or wholeNumber) count
      match manyUpTo track tracks.length tracks with
      | (s :: ss, []) => return "repeat(" ++ n ++ ", " ++ spaced (s :: ss) ++ ")"
      | _ => none
    | _, _ => none
  | _ => none

def tracks : Reader := fun xs =>
  match keyword ["none"] xs, manyUpTo (track.or trackRepeat) xs.length xs with
  | some r, _ => some r
  | none, ([], _) => none
  | none, (ss, rest) => some (spaced ss, rest)

/-! ## Single values -/

def intrinsicSizes : List String :=
  ["min-content", "-webkit-min-content", "-moz-min-content", "max-content", "-webkit-max-content",
   "-moz-max-content", "fit-content", "-webkit-fit-content", "-moz-fit-content", "stretch",
   "-webkit-fill-available", "-moz-available", "contain"]

def size (none' : String) : Reader :=
  firstOf [keyword (none' :: intrinsicSizes), trackFunctionOfSize, lengthPercentage]
where
  trackFunctionOfSize : Reader := one fun
    | .function name xs =>
      if lowered name = "fit-content" then
        (whole? lengthPercentage (withoutGaps xs)).map fun s => "fit-content(" ++ s ++ ")"
      else none
    | _ => none

def overflowKeyword : Reader := keyword ["visible", "hidden", "clip", "scroll", "auto"]

def gapValue : Reader := (keyword ["normal"]).or lengthPercentage

def spacing : Reader := (keyword ["normal"]).or length

/-- Words of alignment in their order; `first` says nothing. -/
def alignment (words : List String) : Reader := fun xs =>
  match manyUpTo (keyword ("normal" :: "stretch" :: "baseline" :: "first" :: "last" :: "safe"
      :: "unsafe" :: "center" :: "start" :: "end" :: "flex-start" :: "flex-end" :: words)) 2 xs with
  | ([], _) => none
  | ("first" :: ss, rest) => some (spaced ss, rest)
  | (ss, rest) => some (spaced ss, rest)

def contentWords : List String :=
  ["space-between", "space-around", "space-evenly", "left", "right"]

def selfWords : List String := ["auto", "self-start", "self-end", "left", "right", "legacy"]

/-- A ratio, whose second number is one if it is missing. -/
def ratio : Reader := fun xs =>
  match number xs with
  | some (a, x :: rest) =>
    if x.isDelim '/' then
      (number rest).map fun (b, rest) => (if b = "1" then a else a ++ " / " ++ b, rest)
    else some (a, x :: rest)
  | r => r

def aspectRatio : Reader := fun xs => do
  let (read, rest) ← someParts? [keyword ["auto"], ratio] xs
  return (spaced (read.filterMap id), rest)

def cursors : List String :=
  ["auto", "default", "none", "context-menu", "help", "pointer", "progress", "wait", "cell",
   "crosshair", "text", "vertical-text", "alias", "copy", "move", "no-drop", "not-allowed", "grab",
   "grabbing", "e-resize", "n-resize", "ne-resize", "nw-resize", "s-resize", "se-resize",
   "sw-resize", "w-resize", "ew-resize", "ns-resize", "nesw-resize", "nwse-resize", "col-resize",
   "row-resize", "all-scroll", "zoom-in", "zoom-out"]

def verticalAlign : Reader :=
  (keyword ["baseline", "sub", "super", "top", "text-top", "middle", "bottom", "text-bottom"]).or
    lengthPercentage

def textTransform : Reader := fun xs =>
  match keyword ["none"] xs with
  | some r => some r
  | none => do
    let (read, rest) ← someParts? [keyword ["capitalize", "uppercase", "lowercase"],
      keyword ["full-width"], keyword ["full-size-kana"]] xs
    return (spaced (read.filterMap id), rest)

def counterType : Reader := (keyword ["none"]).or counterStyle

/-! ## Properties by name -/

/-- Properties whose values are one of some words. -/
def words? : String → Option (List String)
  | "visibility" => some ["visible", "hidden", "collapse"]
  | "position" => some ["static", "relative", "absolute", "sticky", "-webkit-sticky", "fixed"]
  | "box-sizing" => some ["content-box", "border-box"]
  | "text-overflow" => some ["clip", "ellipsis"]
  | "text-align" =>
    some ["start", "end", "left", "right", "center", "justify", "match-parent", "justify-all"]
  | "text-align-last" =>
    some ["auto", "start", "end", "left", "right", "center", "justify", "match-parent"]
  | "text-justify" => some ["auto", "none", "inter-word", "inter-character"]
  | "white-space" => some ["normal", "pre", "nowrap", "pre-wrap", "break-spaces", "pre-line"]
  | "word-break" => some ["normal", "keep-all", "break-all", "break-word"]
  | "line-break" => some ["auto", "loose", "normal", "strict", "anywhere"]
  | "hyphens" => some ["none", "manual", "auto"]
  | "overflow-wrap" | "word-wrap" => some ["normal", "anywhere", "break-word"]
  | "direction" => some ["ltr", "rtl"]
  | "unicode-bidi" =>
    some ["normal", "embed", "isolate", "bidi-override", "isolate-override", "plaintext"]
  | "list-style-position" => some ["inside", "outside"]
  | "backface-visibility" => some ["visible", "hidden"]
  | "transform-style" => some ["flat", "preserve-3d"]
  | "user-select" => some ["auto", "text", "none", "contain", "all"]
  | "resize" => some ["none", "both", "horizontal", "vertical", "block", "inline"]
  | "box-decoration-break" => some ["slice", "clone"]
  | _ => none

def isOneOfSides (first last name : String) : Bool :=
  ["top", "right", "bottom", "left", "block-start", "block-end", "inline-start", "inline-end"].any
    fun side => name = first ++ side ++ last

/-- Groups of properties with a side or a corner in their names. -/
def sideGrammar? (name : String) : Option Reader :=
  if isOneOfSides "margin-" "" name || isOneOfSides "padding-" "" name ||
      isOneOfSides "inset-" "" name || isOneOfSides "" "" name then some lengthPercentageOrAuto
  else if isOneOfSides "border-" "" name || ["border-block", "border-inline"].contains name then
    some border
  else if isOneOfSides "border-" "-style" name then some lineStyle
  else if isOneOfSides "border-" "-width" name then some lineWidth
  else if isOneOfSides "border-" "-color" name then some colour
  else if ["border-top-left-radius", "border-top-right-radius", "border-bottom-left-radius",
      "border-bottom-right-radius", "border-start-start-radius", "border-start-end-radius",
      "border-end-start-radius", "border-end-end-radius"].contains name then
    some (pair lengthPercentage)
  else none

/-- How a property reads its values, if it is one that does. -/
def grammar? (name : String) : Option Reader :=
  match name with
  | "display" => some display
  | "z-index" => some ((keyword ["auto"]).or wholeNumber)
  | "order" => some wholeNumber
  | "width" | "height" | "min-width" | "min-height" | "block-size" | "inline-size"
  | "min-block-size" | "min-inline-size" => some (size "auto")
  | "max-width" | "max-height" | "max-block-size" | "max-inline-size" => some (size "none")
  | "margin" | "padding" | "inset" => some (sides lengthPercentageOrAuto)
  | "margin-block" | "margin-inline" | "padding-block" | "padding-inline" | "inset-block"
  | "inset-inline" => some (pair lengthPercentageOrAuto)
  | "overflow" => some (pair overflowKeyword)
  | "overflow-x" | "overflow-y" => some overflowKeyword
  | "border" => some border
  | "border-style" => some (sides lineStyle)
  | "border-width" => some (sides lineWidth)
  | "border-color" => some (sides colour)
  | "border-radius" => some borderRadius
  | "border-spacing" => some (pair length)
  | "outline" => some (borderWith outlineStyle)
  | "outline-style" => some outlineStyle
  | "outline-width" => some lineWidth
  | "color" | "background-color" | "outline-color" | "text-decoration-color"
  | "text-emphasis-color" => some colour
  | "accent-color" | "caret-color" => some ((keyword ["auto"]).or colour)
  | "box-shadow" => some (list boxShadow)
  | "text-shadow" => some (list textShadow)
  | "background" => some background
  | "background-image" => some (list layerImage)
  | "background-position" => some (list place)
  | "background-size" => some (list layerSize)
  | "background-repeat" => some (list layerRepeat)
  | "background-attachment" => some (list attachment)
  | "background-origin" => some (list boxName)
  | "opacity" | "fill-opacity" | "stroke-opacity" => some alphaValue
  | "font" => some font
  | "font-family" => some (list fontFamily)
  | "font-size" => some fontSize
  | "font-weight" => some fontWeight
  | "font-style" => some fontStyle
  | "font-stretch" => some (fontStretch.or percentage)
  | "line-height" => some lineHeight
  | "letter-spacing" | "word-spacing" => some spacing
  | "text-indent" => some lengthPercentage
  | "text-transform" => some textTransform
  | "text-decoration" => some textDecoration
  | "text-decoration-line" => some decorationLine
  | "text-decoration-style" => some decorationStyle
  | "text-decoration-thickness" => some decorationThickness
  | "vertical-align" => some verticalAlign
  | "flex" => some flex
  | "flex-direction" => some flexDirection
  | "flex-wrap" => some flexWrap
  | "flex-flow" => some flexFlow
  | "flex-grow" | "flex-shrink" => some number
  | "flex-basis" => some lengthPercentageOrAuto
  | "justify-content" | "align-content" => some (alignment contentWords)
  | "align-items" | "align-self" | "justify-items" | "justify-self" => some (alignment selfWords)
  | "gap" => some (pair gapValue)
  | "row-gap" | "column-gap" => some gapValue
  | "grid-template-columns" | "grid-template-rows" => some tracks
  | "transform" => some transform
  | "transition" => some transition
  | "transition-property" => some (list transitionProperty)
  | "transition-duration" | "transition-delay" | "animation-duration" | "animation-delay" =>
    some (list time)
  | "transition-timing-function" | "animation-timing-function" => some (list easing)
  | "cursor" => some (keyword cursors)
  | "list-style" => some listStyle
  | "list-style-type" => some counterType
  | "list-style-image" => some layerImage
  | "aspect-ratio" => some aspectRatio
  | _ => (words? name).map keyword <|> sideGrammar? name

/-- The text of a value. None if it holds an error token. -/
def valueText? (name : String) (xs : List Component) : Option String :=
  match (grammar? name).bind fun r => whole? r (withoutGaps xs) with
  | some s => some s
  | none => verbatim? xs

/-! ## Names -/

/-- Known properties whose values are only kept. -/
def keptProperties : List String :=
  ["all", "background-position-x", "background-position-y", "background-clip", "border-image",
   "border-image-source", "border-image-slice", "border-image-width", "border-image-outset",
   "border-image-repeat", "place-content", "place-self", "place-items", "grid-auto-flow",
   "grid-auto-columns", "grid-auto-rows", "grid-template-areas", "grid-template", "grid",
   "grid-area", "grid-row", "grid-column", "grid-row-start", "grid-row-end",
   "grid-column-start", "grid-column-end", "font-variant-caps", "font-palette", "animation",
   "animation-name", "animation-iteration-count", "animation-direction", "animation-fill-mode",
   "animation-play-state", "transform-origin", "transform-box", "perspective",
   "perspective-origin", "translate", "rotate", "scale", "tab-size", "text-emphasis",
   "text-emphasis-style", "text-emphasis-position", "text-size-adjust", "appearance",
   "caret", "caret-shape", "fill", "stroke", "stroke-width", "clip-path", "mask", "mask-image",
   "filter", "backdrop-filter", "container", "container-type", "container-name",
   "color-scheme", "print-color-adjust", "text-decoration-skip-ink"]

/-- Properties that vendors had under a name of their own. -/
def markedProperties : List String :=
  ["box-sizing", "border-radius", "border-top-left-radius", "border-top-right-radius",
   "border-bottom-left-radius", "border-bottom-right-radius", "border-image", "box-shadow",
   "flex", "flex-direction", "flex-wrap", "flex-flow", "flex-grow", "flex-shrink", "flex-basis",
   "order", "align-content", "justify-content", "align-self", "align-items", "transform",
   "transform-origin", "transform-style", "perspective", "perspective-origin",
   "backface-visibility", "transition", "transition-property", "transition-duration",
   "transition-delay", "transition-timing-function", "animation", "animation-name",
   "animation-duration", "animation-delay", "animation-timing-function",
   "animation-iteration-count", "animation-direction", "animation-fill-mode",
   "animation-play-state", "background-clip", "user-select", "appearance", "text-size-adjust",
   "hyphens", "filter", "backdrop-filter", "mask", "mask-image", "clip-path",
   "text-decoration", "text-decoration-line", "text-decoration-style", "text-decoration-color",
   "text-decoration-skip-ink", "text-emphasis", "text-emphasis-style", "text-emphasis-color",
   "text-emphasis-position", "box-decoration-break", "print-color-adjust"]

def vendorMarks : List (List Char) :=
  ["-webkit-".toList, "-moz-".toList, "-ms-".toList, "-o-".toList]

/-- A property by its written name. -/
def propertyName (written : String) : String :=
  let name := lowered written
  let unmarked := vendorMarks.findSome? fun mark => Text.dropLead? mark name.toList
  match (unmarked.map String.ofList).filter markedProperties.contains with
  | some name => name
  | none => if (grammar? name).isSome || keptProperties.contains name then name else written

end AuthoredStyle.Css
