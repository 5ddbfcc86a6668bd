import AuthoredStyle.Cascade.Computed
import AuthoredStyle.Css.Plain
import AuthoredStyle.Page.Basic
import AuthoredStyle.SourceMap.Fetch

/-!
# Static pages

A document that no browser has rendered is styled here: its stylesheets are
collected in document order, their rules cascade, and every element gets the
values that a browser would compute. The result is a snapshot like a captured
one. A stylesheet whose address cannot be resolved is no stylesheet of the page;
one that cannot be fetched is, but has no rules.
-/

namespace AuthoredStyle.Page.Static

open Cascade (computedValues declaredValues)
open Dom (Tree Level)

variable [Libraries]

/-! ## Stylesheets -/

def isStylesheetLink (e : Dom.Element) : Bool :=
  match e.attr? "rel" with
  | some rel => (Text.words rel.toList).any fun w => Text.lower w = "stylesheet".toList
  | none => false

/-- The stylesheet that one element brings into the page. -/
def stylesheet? (base : String) (e : Dom.Element) (children : List Tree) : Option Stylesheet :=
  match e.tag with
  | "link" => do
    let href ← (e.attr? "href").filter fun _ => isStylesheetLink e
    return .external (← (SourceMap.resolveUrl base href).toOption)
  | "style" => some (.inline (Dom.textOf children) base)
  | _ => none

mutual

/-- The stylesheets of a tree in document order. -/
def stylesheetsUnder (base : String) : Tree → List Stylesheet
  | .element e children => (stylesheet? base e children).toList ++ stylesheetsOf base children
  | .text _ => []
  | .comment _ => []

def stylesheetsOf (base : String) : List Tree → List Stylesheet
  | [] => []
  | t :: ts => stylesheetsUnder base t ++ stylesheetsOf base ts

end

def sheetText? (fetch : SourceMap.Fetcher) : Stylesheet → Option String
  | .external href => (fetch href).toOption
  | .inline text _ => some text

/-- The rules of the stylesheets that are in reach. -/
def rulesOf (fetch : SourceMap.Fetcher) (sheets : List Stylesheet) : List Cascade.Rule :=
  Cascade.rulesOfAll 0 ((sheets.filterMap (sheetText? fetch)).map Css.sheetOf)

/-! ## Elements -/

def ownDeclarations (e : Dom.Element) : List Cascade.Declaration :=
  match e.attr? "style" with
  | some s => Css.styleOf s
  | none => []

/-- The computed values at a place, given those of its parent. -/
def valuesAt (rules : List Cascade.Rule) (parent : Option (Dict String)) (p : Dom.Place) :
    Dict String :=
  computedValues p.element.tag (declaredValues rules (ownDeclarations p.element) p) parent

mutual

/-- A tree's elements with their values; `above` and `before` place its root. -/
def styledUnder (rules : List Cascade.Rule) (parent : Option (Dict String)) (above : List Level)
    (before : List Dom.Element) : Tree → Option ElementSnapshot
  | .element e children =>
    let values := valuesAt rules parent ⟨⟨e, before⟩, above⟩
    some ⟨e.tag, e.id?, e.classes, values,
      styledOf rules (some values) (⟨e, before⟩ :: above) [] children⟩
  | .text _ => none
  | .comment _ => none

def styledOf (rules : List Cascade.Rule) (parent : Option (Dict String)) (above : List Level)
    (before : List Dom.Element) : List Tree → List ElementSnapshot
  | [] => []
  | .element e children :: ts =>
    (styledUnder rules parent above before (.element e children)).toList ++
      styledOf rules parent above (e :: before) ts
  | _ :: ts => styledOf rules parent above before ts

end

/-- A document's root element with everything below it, styled. -/
def styled? (rules : List Cascade.Rule) (root : Tree) : Option ElementSnapshot :=
  styledUnder rules none [] [] root

def root? (html : String) : Option Tree := Dom.rootOf (Libraries.document html).trees

/-- The stylesheets of the document in a text whose address is `base`. -/
def stylesheets (base html : String) : List Stylesheet :=
  match root? html with
  | some root => stylesheetsUnder base root
  | none => []

/-- The snapshot of the document in a text whose address is `base`. -/
def snapshot (fetch : SourceMap.Fetcher) (base html : String) : Except Error Snapshot :=
  let sheets := stylesheets base html
  match (root? html).bind (styled? (rulesOf fetch sheets)) with
  | some document => .ok ⟨document, sheets⟩
  | none => .error .noRootElement

def load (fetch : SourceMap.Fetcher) (base html : String) : Except Error Page :=
  (snapshot fetch base html).map .ofSnapshot

end AuthoredStyle.Page.Static
