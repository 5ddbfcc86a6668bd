import AuthoredStyle.Cascade.Declared
import AuthoredStyle.Dom.Table
import AuthoredStyle.Json.Value
import AuthoredStyle.Url.Basic

/-!
# What is taken from libraries

Addresses, JSON, base64, documents, style sheets and notations of colours are read
by libraries. Whatever depends on them is defined for any `Libraries`, so what is
proved of it holds whatever these functions do.
-/

namespace AuthoredStyle

/-- Channels of one byte each, and an alpha from nought to one. -/
structure ByteColour where
  red : UInt8
  green : UInt8
  blue : UInt8
  alpha : Float

class Libraries where
  Address : Type
  readAddress : String → Except Url.Error Address
  /-- A reference relative to a base. -/
  joinAddress : (base : Address) → (reference : String) → Except Url.Error Address
  addressText : Address → String
  /-- The path of the file that an address names. -/
  filePath? : Address → Option String
  /-- The address of a file, given its path from the root. -/
  fileAddress : (path : String) → String
  /-- The value of a text, every part of which has to be in order. -/
  jsonValue? : String → Option Json
  /-- The value of a text, for a reader who may skip parts of it. -/
  jsonRecord? : String → Option Json
  jsonText : Json → String
  /-- A value's text with line ends and indents. -/
  jsonLines : Json → String
  base64? : List Char → Option ByteArray
  /-- The nodes that a document is built of. -/
  document : String → Dom.Table
  /-- The style rules at the top level of a sheet, with all their selectors. -/
  styleRules : String → Cascade.StyleSheet
  /-- The declarations of a style attribute. -/
  styleAttribute : String → List Cascade.Declaration
  colour? : List Char → Option ByteColour

end AuthoredStyle
