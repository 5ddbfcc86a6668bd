import AuthoredStyle.Css.Colour

/-!
# Values that are kept as they are

A value of an unknown property, or one that its property does not understand, keeps
its tokens. Each stretch of white space and comments becomes one space; there is none
at the ends nor behind an operator, and operators, numbers, colours and strings are
written in one way.
-/

namespace AuthoredStyle.Css

/-- Units by their kinds, as they are written. -/
def lengthUnits : List String :=
  ["px", "in", "cm", "mm", "q", "pt", "pc", "em", "rem", "ex", "rex", "ch", "rch", "cap", "rcap",
   "ic", "ric", "lh", "rlh", "vw", "lvw", "svw", "dvw", "cqw", "vh", "lvh", "svh", "dvh", "cqh",
   "vi", "svi", "lvi", "dvi", "cqi", "vb", "svb", "lvb", "dvb", "cqb", "vmin", "svmin", "lvmin",
   "dvmin", "cqmin", "vmax", "svmax", "lvmax", "dvmax", "cqmax"]

def lowered (s : String) : String := String.ofList (Text.lower s.toList)

/-- Seconds, or milliseconds where these are shorter. -/
def timeText? (x : Float32) (unit : String) : Option String :=
  match lowered unit with
  | "s" =>
    some (if 0 < x && x < 0.1 then dimensionText (x * 1000) "ms" else dimensionText x "s")
  | "ms" =>
    some (if x == 0 || 100 ≤ x then dimensionText (x / 1000) "s" else dimensionText x "ms")
  | _ => none

def angleText? (x : Float32) (unit : String) : Option String :=
  if ["deg", "grad", "rad", "turn"].contains (lowered unit) then
    some (dimensionText x (lowered unit))
  else none

/-- A number with its unit. -/
def measureText (x : Float32) (unit : String) : String :=
  if lengthUnits.contains (lowered unit) then dimensionText x (lowered unit)
  else ((timeText? x unit) <|> (angleText? x unit)).getD (dimensionText x unit)

def comparisonText : Comparison → String
  | .includes => "~="
  | .dash => "|="
  | .lead => "^="
  | .ending => "$="
  | .substring => "*="

def openText : Bracket → String
  | .round => "("
  | .square => "["
  | .curly => "\x7b"

def closeText : Bracket → String
  | .round => ")"
  | .square => "]"
  | .curly => "\x7d"

/-- What one component of a value is written with: as it is, as an operator with
spaces around it, or as brackets with a space behind them where something follows. -/
inductive Item where
  | text (s : String)
  | space
  | sign (c : Char)
  | operator (c : Char)
  | closed (s : String)

namespace Item

/-- No space is left behind operators and closing brackets, nor in front of an
operator. The items so far are the latest first. -/
def add (items : List Item) (new : Item) : List Item :=
  match new, items with
  | space, sign _ :: _ | space, operator _ :: _ | space, closed _ :: _ => items
  | sign c, space :: items => sign c :: items
  | operator c, space :: items => operator c :: items
  | new, items => new :: items

def dropSpace : List Item → List Item
  | space :: items => items
  | items => items

/-- The items in order, without spaces at the ends. -/
def trimmed (items : List Item) : List Item := dropSpace (dropSpace items).reverse

/-- The text of items; `spaced` says whether a space was just written. -/
def textFrom (spaced : Bool) : List Item → String
  | [] => ""
  | i :: rest =>
    match i with
    | text s => s ++ textFrom false rest
    | space => " " ++ textFrom true rest
    | sign c => " " ++ String.singleton c ++ " " ++ textFrom true rest
    | operator c =>
      let before := if !spaced && (c = '/' || c = '*') then " " else ""
      before ++ String.singleton c ++ " " ++ textFrom true rest
    | closed s =>
      let comes : Bool :=
        match rest with
        | [] | operator ',' :: _ => false
        | _ => true
      s ++ (if comes then " " else "") ++ textFrom comes rest

end Item

def tokenItem? (t : Token) : Option Item :=
  match t with
  | .ident name => some (.text (identText name))
  | .atKeyword name => some (.text ("@" ++ identText name))
  | .hash name isId =>
    some (.text ("#" ++ if isId then identText name
      else String.ofList (name.toList.flatMap nameChar)))
  | .string s => some (.text (stringText s))
  | .url s => some (.text (urlText s))
  | .delim c => some (if c = '+' || c = '-' then .sign c else .operator c)
  | .number n => some (.text (numberText n.value))
  | .percentage n => some (.text (String.ofList (digitsText (n.value * 100)) ++ "%"))
  | .dimension n unit => some (.text (measureText n.value unit))
  | .space | .comment => some .space
  | .cdo => some (.text "<!--")
  | .cdc => some (.text "-->")
  | .colon => some (.text ":")
  | .semicolon => some (.text ";")
  | .comma => some (.operator ',')
  | .compare how => some (.text (comparisonText how))
  | .function _ | .opening _ | .closing _ | .broken => none

mutual

/-- The items of components; none if an error token is among them. -/
def itemsOf? : List Component → Option (List Item)
  | [] => some []
  | x :: xs => do return (← itemsOfOne? x) ++ (← itemsOf? xs)

def itemsOfOne? : Component → Option (List Item)
  | .token t =>
    match plainColour? (.token t) with
    | some colour => some [.text colour]
    | none => (tokenItem? t).map fun i => [i]
  | .function name xs =>
    match plainColour? (.function name xs) with
    | some colour => some [.text colour]
    | none => do
      match name, xs.filter (!·.isGap) with
      | "url", [.token (.string s)] => some [.text (urlText s)]
      | _, _ =>
        let inner := Item.trimmed ((← itemsOf? xs).foldl Item.add [])
        some [.closed (identText name ++ "(" ++ Item.textFrom false inner ++ ")")]
  | .block b xs => do
    let inner := ((← itemsOf? xs).foldl Item.add []).reverse
    some [.text (openText b ++ Item.textFrom false inner), .closed (closeText b)]

end

/-- The text of a value that is kept, unless an error token is in it. -/
def verbatim? (xs : List Component) : Option String := do
  let items := (← itemsOf? xs).foldl Item.add []
  return Item.textFrom false (Item.trimmed items)

end AuthoredStyle.Css
