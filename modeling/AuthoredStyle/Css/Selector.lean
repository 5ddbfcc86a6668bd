import AuthoredStyle.Css.Written

/-!
# Selectors of style rules

A selector list is read as a whole: one selector that is none spoils it. Each is
written with single spaces around its combinators, attribute values in quotes, and
without an asterisk that says nothing. Arguments of pseudo-classes are not looked at.
-/

namespace AuthoredStyle.Css

def signText : Comparison → String
  | .includes => "~="
  | .dash => "|="
  | .lead => "^="
  | .ending => "$="
  | .substring => "*="

/-- The comparison in an attribute test, by its sign. -/
def attributeSign? : Component → Option String
  | .token (.delim '=') => some "="
  | .token (.compare how) => some (signText how)
  | _ => none

def attributeValue? : Component → Option String
  | .token (.string s) => some s
  | .token (.ident s) => some s
  | _ => none

/-- Whether letters differ by case may be said behind the value. -/
def caseFlag? : List Component → Option String
  | [] => some ""
  | [x] =>
    match x.keyword? with
    | some "i" => some " i"
    | some "s" => some " s"
    | _ => none
  | _ => none

def attributeText? (xs : List Component) : Option String :=
  match withoutGaps xs with
  | [.token (.ident name)] => some ("[" ++ identText name ++ "]")
  | .token (.ident name) :: sign :: value :: flag => do
    return "[" ++ identText name ++ (← attributeSign? sign) ++ stringText (← attributeValue? value)
      ++ (← caseFlag? flag) ++ "]"
  | _ => none

/-- Pseudo-elements that may have a single colon. -/
def oldPseudoElements : List String := ["before", "after", "first-line", "first-letter"]

/-- A compound as it is read: its text so far and whether it has got a pseudo-element,
behind which only pseudo-classes may stand. -/
structure Compound where
  text : String := ""
  isEmpty : Bool := true
  /-- An asterisk that is not written unless it stays alone. -/
  universal : Bool := false
  atElement : Bool := false

namespace Compound

def add (c : Compound) (s : String) : Compound := { c with text := c.text ++ s, isEmpty := false }

def written (c : Compound) : String := if c.text.isEmpty && c.universal then "*" else c.text

/-- A simple selector other than a pseudo-class. -/
def addPlain? (c : Compound) (s : String) : Option Compound :=
  if c.atElement then none else some (c.add s)

def addPseudo (c : Compound) (name : String) (isElement : Bool) : Compound :=
  { c.add ((if isElement then "::" else ":") ++ name) with
    atElement := c.atElement || isElement }

end Compound

/-- Reads one compound; a white space, a combinator or anything else ends it. -/
def compoundFrom (c : Compound) : List Component → Option (Compound × List Component)
  | [] => some (c, [])
  | .token .colon :: .token .colon :: .token (.ident name) :: xs =>
    if c.atElement then none else compoundFrom (c.addPseudo name true) xs
  | .token .colon :: .token .colon :: .function name _ :: xs =>
    if c.atElement then none else compoundFrom (c.addPseudo name true) xs
  | .token .colon :: .token (.ident name) :: xs =>
    let isElement := oldPseudoElements.contains (String.ofList (Text.lower name.toList))
    if c.atElement && isElement then none else compoundFrom (c.addPseudo name isElement) xs
  | .token .colon :: .function name _ :: xs => compoundFrom (c.addPseudo name false) xs
  | .token .colon :: _ => none
  | .token (.delim '.') :: .token (.ident name) :: xs =>
    (c.addPlain? ("." ++ identText name)).bind fun c => compoundFrom c xs
  | .token (.hash name true) :: xs =>
    (c.addPlain? ("#" ++ identText name)).bind fun c => compoundFrom c xs
  | .token (.delim '&') :: xs => (c.addPlain? "&").bind fun c => compoundFrom c xs
  | .block .square content :: xs =>
    (attributeText? content).bind fun s => (c.addPlain? s).bind fun c => compoundFrom c xs
  | .token (.ident name) :: xs =>
    if c.isEmpty then compoundFrom (c.add (identText name)) xs else none
  | .token (.delim '*') :: xs =>
    if c.isEmpty then compoundFrom { c with isEmpty := false, universal := true } xs else none
  | x :: xs => some (c, x :: xs)

def combinator? : Component → Option String
  | .token (.delim '>') => some " > "
  | .token (.delim '+') => some " + "
  | .token (.delim '~') => some " ~ "
  | _ => none

/-- The combinator that follows a compound, and what is behind it. -/
def nextCombinator? (xs : List Component) : Option (String × List Component) :=
  match xs.dropWhile (·.isGap) with
  | [] => none
  | x :: rest =>
    match combinator? x with
    | some s => some (s, rest.dropWhile (·.isGap))
    | none => if xs.head?.any (·.isGap) then some (" ", x :: rest) else some ("", x :: rest)

/-- Compounds and combinators, at most as many as there are components. -/
def complexFrom (text : String) : (most : Nat) → List Component → Option String
  | 0, _ => none
  | most + 1, xs => do
    let (c, rest) ← compoundFrom {} xs
    if c.isEmpty then failure
    let text := text ++ c.written
    match nextCombinator? rest with
    | none => return text
    | some (s, rest) => if s = "" || c.atElement then none else complexFrom (text ++ s) most rest

/-- One selector; a relative one may start with a combinator. -/
def selectorText? (relative : Bool) (xs : List Component) : Option String :=
  let xs := trimGaps (xs.filter fun x => !x.isToken .comment)
  match xs.head?.bind combinator? with
  | some s =>
    if relative then complexFrom (String.ofList (Text.trimStart s.toList)) xs.length
      ((xs.drop 1).dropWhile (·.isGap))
    else none
  | none => complexFrom "" xs.length xs

def selectorTexts? (relative : Bool) (xs : List Component) : Option (List String) :=
  (splitCommas xs).mapM (selectorText? relative)

end AuthoredStyle.Css
