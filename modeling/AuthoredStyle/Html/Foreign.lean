import AuthoredStyle.Dom.Element
import AuthoredStyle.Html.Token

/-!
# Names in foreign content

Tag and attribute names come in lower case; in SVG and MathML some have capitals.
Attributes with a namespace of their own keep only the name in it.
-/

namespace AuthoredStyle.Html

/-- SVG element names with capitals. -/
def svgNames : List String :=
  ["altGlyph", "altGlyphDef", "altGlyphItem", "animateColor", "animateMotion",
   "animateTransform", "clipPath", "feBlend", "feColorMatrix", "feComponentTransfer",
   "feComposite", "feConvolveMatrix", "feDiffuseLighting", "feDisplacementMap",
   "feDistantLight", "feDropShadow", "feFlood", "feFuncA", "feFuncB", "feFuncG", "feFuncR",
   "feGaussianBlur", "feImage", "feMerge", "feMergeNode", "feMorphology", "feOffset",
   "fePointLight", "feSpecularLighting", "feSpotLight", "feTile", "feTurbulence",
   "foreignObject", "glyphRef", "linearGradient", "radialGradient", "textPath"]

/-- SVG attribute names with capitals. -/
def svgAttributes : List String :=
  ["attributeName", "attributeType", "baseFrequency", "baseProfile", "calcMode",
   "clipPathUnits", "diffuseConstant", "edgeMode", "filterUnits", "glyphRef",
   "gradientTransform", "gradientUnits", "kernelMatrix", "kernelUnitLength", "keyPoints",
   "keySplines", "keyTimes", "lengthAdjust", "limitingConeAngle", "markerHeight",
   "markerUnits", "markerWidth", "maskContentUnits", "maskUnits", "numOctaves", "pathLength",
   "patternContentUnits", "patternTransform", "patternUnits", "pointsAtX", "pointsAtY",
   "pointsAtZ", "preserveAlpha", "preserveAspectRatio", "primitiveUnits", "refX", "refY",
   "repeatCount", "repeatDur", "requiredExtensions", "requiredFeatures", "specularConstant",
   "specularExponent", "spreadMethod", "startOffset", "stdDeviation", "stitchTiles",
   "surfaceScale", "systemLanguage", "tableValues", "targetX", "targetY", "textLength",
   "viewBox", "viewTarget", "xChannelSelector", "yChannelSelector", "zoomAndPan"]

/-- Attributes that have a namespace of their own. -/
def qualifiedAttributes : List String :=
  ["xlink:actuate", "xlink:arcrole", "xlink:href", "xlink:role", "xlink:show", "xlink:title",
   "xlink:type", "xml:base", "xml:lang", "xml:space", "xmlns:xlink"]

/-- The spelling of a name among some names, whatever the case. -/
def spelled (names : List String) (name : String) : String :=
  (names.find? fun n => Dom.Element.lowered n = name).getD name

def attributeName (space : Dom.Namespace) (name : String) : String :=
  let own :=
    match space with
    | .html => name
    | .svg => spelled svgAttributes name
    | .mathml => if name = "definitionurl" then "definitionURL" else name
  if qualifiedAttributes.contains own then String.ofList ((own.toList.dropWhile (· ≠ ':')).drop 1)
  else own

def elementName (space : Dom.Namespace) (name : String) : String :=
  match space with
  | .svg => spelled svgNames name
  | .html | .mathml => name

/-- The element of a tag that stands in foreign content. -/
def foreignElement (space : Dom.Namespace) (tag : Tag) : Dom.Element where
  space := space
  name := elementName space tag.name
  attributes := tag.attributes.map fun a => (attributeName space a.1, a.2)

end AuthoredStyle.Html
