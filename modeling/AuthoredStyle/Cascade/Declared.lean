import AuthoredStyle.Cascade.Match
import AuthoredStyle.Dict

/-!
# Declared values of an element

Declarations of matching rules apply by specificity and then by source order,
those of the element itself after all rules, and important ones after all others.
The last declaration of a longhand counts; box and axis shorthands are declared
as their longhands.
-/

namespace AuthoredStyle.Cascade

structure Declaration where
  property : String
  value : String
  important : Bool := false
  deriving DecidableEq, Repr

/-- A style rule as it stands in a sheet. -/
structure StyleRule where
  selectors : List String
  declarations : List Declaration
  deriving DecidableEq, Repr

abbrev StyleSheet := List StyleRule

def Declaration.text (d : Declaration) : String :=
  "  " ++ d.property ++ ": " ++ d.value ++ (if d.important then " !important" else "") ++ ";\n"

def StyleRule.text (r : StyleRule) : String :=
  ", ".intercalate r.selectors ++ " \x7b\n" ++ String.join (r.declarations.map (·.text)) ++ "\x7d\n"

def sheetText (s : StyleSheet) : String := String.join (s.map (·.text))

/-- One selector of a rule, ready for matching. -/
structure Rule where
  selector : Complex
  declarations : List Declaration
  order : Nat
  deriving DecidableEq

def Rule.specificity (r : Rule) : Specificity := r.selector.specificity

/-- One rule for each selector that can be read; `first` continues the source
order of the sheets before. -/
def rulesOf (sheet : StyleSheet) (first : Nat) : List Rule :=
  (sheet.zipIdx first).flatMap fun (rule, order) =>
    rule.selectors.filterMap fun s =>
      (Complex.ofText? s).map fun selector => ⟨selector, rule.declarations, order⟩

/-- The rules of sheets in document order. -/
def rulesOfAll (first : Nat) : List StyleSheet → List Rule
  | [] => []
  | s :: ss => rulesOf s first ++ rulesOfAll (first + s.length) ss

/-! ## Shorthands -/

/-- The parts between blanks outside parentheses; a closing parenthesis without an
opening one counts for nothing. The part being read is held latest first. -/
def componentsFrom (depth : Nat) (part : List Char) : List Char → List (List Char)
  | [] => if part.isEmpty then [] else [part.reverse]
  | c :: s =>
    if depth = 0 && Text.isBlank c then
      if part.isEmpty then componentsFrom 0 [] s else part.reverse :: componentsFrom 0 [] s
    else
      let inner := if c = '(' then depth + 1 else if c = ')' then depth - 1 else depth
      componentsFrom inner (c :: part) s

def components (value : String) : List String :=
  (componentsFrom 0 [] value.toList).map String.ofList

def boxSides (property top right bottom left : String) : List (String × String) :=
  [(property ++ "-top", top), (property ++ "-right", right), (property ++ "-bottom", bottom),
   (property ++ "-left", left)]

/-- The longhands that a declaration sets. A box takes one to four values, an axis
pair one or two; anything else stays as it is. -/
def expand (property value : String) : List (String × String) :=
  match property with
  | "margin" | "padding" =>
    match components value with
    | [a] => boxSides property a a a a
    | [a, b] => boxSides property a b a b
    | [a, b, c] => boxSides property a b c b
    | [a, b, c, d] => boxSides property a b c d
    | _ => [(property, value)]
  | "gap" => pair "row-gap" "column-gap"
  | "overflow" => pair "overflow-x" "overflow-y"
  | _ => [(property, value)]
where
  pair (first second : String) : List (String × String) :=
    match components value with
    | [a] => [(first, a), (second, a)]
    | [a, b] => [(first, a), (second, b)]
    | _ => [(property, value)]

/-! ## The cascade -/

/-- A smaller number comes first; what follows decides between equal ones. -/
def smaller (x y : Nat) (tie : Bool) : Bool := x < y || (x = y && tie)

/-- By specificity, then by source order. -/
def Rule.before (a b : Rule) : Bool :=
  let s := a.specificity
  let t := b.specificity
  smaller s.ids t.ids <| smaller s.classes t.classes <| smaller s.tags t.tags <| a.order ≤ b.order

/-- The declarations that apply to an element, the strongest last. -/
def applied (matching : List Rule) (own : List Declaration) : List Declaration :=
  let all := (matching.mergeSort Rule.before).flatMap (·.declarations) ++ own
  all.filter (!·.important) ++ all.filter (·.important)

def declaredValues (rules : List Rule) (own : List Declaration) (p : Dom.Place) : Dict String :=
  (applied (rules.filter fun r => r.selector.holdsAt p) own).foldl
    (fun d declaration =>
      (expand declaration.property declaration.value).foldl (fun d e => d.insert e.1 e.2) d) ∅

end AuthoredStyle.Cascade
