import AuthoredStyle.Cascade.Declared
import AuthoredStyle.Css.Grammar
import AuthoredStyle.Css.Selector

/-!
# Style sheets

Of a sheet the style rules at its top level are read, without what stands in an at-rule,
in another rule or behind one. A rule that cannot be read is skipped; a declaration that
cannot be read takes the ones before it in its block along.
-/

namespace AuthoredStyle.Css

open Cascade (Declaration StyleRule StyleSheet)

/-- The value of a declaration, without a final `!important`, and whether it has one. -/
def splitImportant? (isCustom : Bool) (xs : List Component) : Option (List Component × Bool) :=
  let ends (x : Component) : Bool := x.isDelim '!' || (!isCustom && x.isCurly)
  let value := xs.takeWhile (!ends ·)
  match withoutGaps (xs.drop value.length) with
  | [] => some (value, false)
  | [mark, word] =>
    if mark.isDelim '!' && word.keyword? = some "important" then some (value, true) else none
  | _ => none

/-- A declaration from what stands behind its name. -/
def declaration? (name : String) (xs : List Component) : Option Declaration :=
  match xs.dropWhile (·.isGap) with
  | .token .colon :: value => do
    let isCustom := "--".toList.isPrefixOf name.toList
    let (value, important) ← splitImportant? isCustom value
    let property := propertyName name
    return { property := property, value := ← valueText? property value, important := important }
  | _ => none

/-- What is read of a block: its declarations, the latest first, and whether a rule
has come, behind which no declaration counts. -/
structure Block where
  declarations : List Declaration := []
  hasRule : Bool := false

namespace Block

def spoiled (b : Block) : Block := { b with declarations := [] }

def add (b : Block) (d : Declaration) : Block :=
  if b.hasRule then b else { b with declarations := d :: b.declarations }

def addRule (b : Block) : Block := { b with hasRule := true }

end Block

/-- Up to a semicolon or a curly bracket, which is answered too. -/
def upToRuleEnd (xs : List Component) : List Component × Option Component × List Component :=
  let ends (x : Component) : Bool := x.isToken .semicolon || x.isCurly
  let before := xs.takeWhile (!ends ·)
  match xs.drop before.length with
  | [] => (before, none, [])
  | x :: rest => (before, some x, rest)

/-- A rule within a block, or something that is nothing. -/
def nestedRule (b : Block) (before : List Component) (ending : Option Component) : Block :=
  match ending with
  | some (.block .curly _) =>
    if (selectorTexts? true before).isSome then b.addRule else b.spoiled
  | _ => b.spoiled

/-- The content of a block, at most as many parts as there are components. -/
def blockFrom (b : Block) : (most : Nat) → List Component → Block
  | 0, _ => b
  | most + 1, xs =>
    match xs with
    | [] => b
    | x :: rest =>
      let (before, ending, behind) := upToRuleEnd xs
      match x with
      | .token .space | .token .comment | .token .semicolon | .token (.closing .curly) =>
        blockFrom b most rest
      | .token (.atKeyword _) => blockFrom b.addRule most behind
      | .token (.ident name) =>
        let whole := rest.takeWhile fun x => !x.isToken .semicolon
        match declaration? name whole with
        | some d => blockFrom (b.add d) most (rest.drop (whole.length + 1))
        | none => blockFrom (nestedRule b before ending) most behind
      | _ => blockFrom (nestedRule b before ending) most behind

def blockDeclarations (xs : List Component) : List Declaration :=
  (blockFrom {} xs.length xs).declarations.reverse

def styleRule? (selectors content : List Component) : Option StyleRule := do
  return {
    selectors := ← selectorTexts? false selectors, declarations := blockDeclarations content }

/-- The rules of a sheet, at most as many as there are components. -/
def rulesFrom : (most : Nat) → List Component → StyleSheet
  | 0, _ => []
  | most + 1, xs =>
    let skipped (x : Component) : Bool := x.isGap || x.isToken .cdo || x.isToken .cdc
    match xs.dropWhile skipped with
    | [] => []
    | .token (.atKeyword _) :: rest => rulesFrom most (upToRuleEnd rest).2.2
    | xs =>
      let selectors := xs.takeWhile (!·.isCurly)
      match xs.drop selectors.length with
      | .block .curly content :: rest =>
        (styleRule? selectors content).toList ++ rulesFrom most rest
      | _ => []

/-- The style rules of a text. -/
def rulesOf (text : String) : StyleSheet :=
  let xs := componentsOf text
  rulesFrom xs.length xs

/-! ## Style attributes -/

/-- Declarations between semicolons. What cannot be read is left out by itself. -/
def styleFrom : (most : Nat) → List Component → List Declaration
  | 0, _ => []
  | most + 1, xs =>
    let ends (x : Component) : Bool := x.isToken .semicolon || x.isToken (.closing .curly)
    match xs.dropWhile fun x => x.isGap || ends x with
    | [] => []
    | .token (.ident name) :: rest =>
      let whole := rest.takeWhile fun x => !x.isToken .semicolon
      (declaration? name whole).toList ++ styleFrom most (rest.drop (whole.length + 1))
    | .token (.atKeyword _) :: rest => styleFrom most (upToRuleEnd rest).2.2
    | xs => styleFrom most ((xs.dropWhile fun x => !x.isToken .semicolon).drop 1)

/-- The declarations of a style attribute. -/
def declarationsOf (text : String) : List Declaration :=
  let xs := componentsOf text
  styleFrom xs.length xs

end AuthoredStyle.Css
