import AuthoredStyle.Libraries.Basic

/-!
# Style sheets of a page

Of a sheet only plain style rules count: at-rules, and selectors with a pseudo-class or
a pseudo-element, describe states and media that a page at rest is not in.
-/

namespace AuthoredStyle.Css

open Cascade (Declaration StyleRule StyleSheet)

/-- Plain declarations come first, important ones behind them. -/
def arranged (ds : List Declaration) : List Declaration :=
  ds.filter (!·.important) ++ ds.filter (·.important)

/-- Whether a selector is about elements alone. -/
def isPlain (selector : String) : Bool := !selector.toList.contains ':'

def plainRule? (r : StyleRule) : Option StyleRule :=
  match r.selectors.filter isPlain with
  | [] => none
  | plain => some { selectors := plain, declarations := arranged r.declarations }

variable [Libraries]

/-- The plain style rules of a text. -/
def sheetOf (text : String) : StyleSheet := (Libraries.styleRules text).filterMap plainRule?

/-- The declarations of a style attribute. -/
def styleOf (text : String) : List Declaration := arranged (Libraries.styleAttribute text)

end AuthoredStyle.Css
