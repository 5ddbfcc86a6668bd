import AuthoredStyle.Css.Reader

/-!
# Values of several parts

Parts of a shorthand may come in any order. Written out, they have a fixed one, and a
part with its initial value is left out.
-/

namespace AuthoredStyle.Css

open Reader

/-- Reads each of some parts at most once, trying them in turn at every place. -/
def partsFrom (rs : List Reader) (read : List (Option String)) : (rounds : Nat) →
    List Component → List (Option String) × List Component
  | 0, xs => (read, xs)
  | rounds + 1, xs =>
    let tried := (rs.zip read).zipIdx.findSome? fun ((r, old), i) =>
      if old.isSome then none else (r xs).map fun (s, rest) => (i, s, rest)
    match tried with
    | none => (read, xs)
    | some (i, s, rest) => partsFrom rs (read.set i (some s)) rounds rest

/-- The parts of a shorthand, and what follows. -/
def parts (rs : List Reader) (xs : List Component) : List (Option String) × List Component :=
  partsFrom rs (rs.map fun _ => none) rs.length xs

/-- The same where at least one part must be there. -/
def someParts? (rs : List Reader) (xs : List Component) :
    Option (List (Option String) × List Component) :=
  let read := parts rs xs
  if read.1.all (·.isNone) then none else some read

/-- The parts that differ from their initial values, which come with them. -/
def telling (read : List (Option String)) (initial : List String) : List String :=
  ((read.zip initial).filter fun (s, i) => s.any (· ≠ i)).filterMap (·.1)

/-! ## Borders and shadows -/

def lineStyles : List String :=
  ["none", "hidden", "inset", "groove", "outset", "ridge", "dotted", "dashed", "solid", "double"]

def lineStyle : Reader := keyword lineStyles

def lineWidth : Reader := (keyword ["thin", "medium", "thick"]).or length

/-- A width, a style and a colour. -/
def borderWith (style : Reader) : Reader := fun xs => do
  let (read, rest) ← someParts? [lineWidth, style, colour] xs
  match telling read ["medium", "none", "currentColor"] with
  | [] => return ("none", rest)
  | ss => return (spaced ss, rest)

def border : Reader := borderWith lineStyle

def outlineStyle : Reader := keyword ("auto" :: lineStyles)

/-- Radii of the corners; the heights stand behind a slash if they differ. -/
def borderRadius : Reader := fun xs =>
  match splitAt (·.isDelim '/') xs with
  | [widths] => (whole? (sides lengthPercentage) widths).map fun s => (s, [])
  | [widths, heights] => do
    let w ← whole? (sides lengthPercentage) widths
    let h ← whole? (sides lengthPercentage) heights
    return (if w = h then w else w ++ " / " ++ h, [])
  | _ => none

/-- Two offsets, a blur and, for boxes, a spread. -/
def offsets (most : Nat) : Reader := fun xs =>
  match manyUpTo length most xs with
  | (x :: y :: more, rest) =>
    let more := (more.reverse.dropWhile (· = "0")).reverse
    some (spaced (x :: y :: more), rest)
  | _ => none

def boxShadow : Reader := fun xs => do
  let (read, rest) ← someParts? [keyword ["inset"], offsets 4, colour] xs
  match read with
  | [inset, some lengths, colour] =>
    return (spaced (inset.toList ++ [lengths] ++ colour.toList.filter (· ≠ "currentColor")), rest)
  | _ => none

def textShadow : Reader := fun xs => do
  let (read, rest) ← someParts? [offsets 3, colour] xs
  match read with
  | [some lengths, colour] =>
    return (spaced (lengths :: colour.toList.filter (· ≠ "currentColor")), rest)
  | _ => none

/-! ## Boxes -/

def displayOutside : List String := ["block", "inline", "run-in"]

def displayInside : List String :=
  ["flow", "flow-root", "table", "flex", "-webkit-flex", "-ms-flexbox", "-webkit-box",
   "-moz-box", "grid", "ruby"]

def displaySingle : List String :=
  ["none", "contents", "table-row-group", "table-header-group", "table-footer-group",
   "table-row", "table-cell", "table-column-group", "table-column", "table-caption",
   "ruby-base", "ruby-text", "ruby-base-container", "ruby-text-container"]

def displayLegacy : List String :=
  ["inline-block", "inline-table", "inline-flex", "-webkit-inline-flex", "-ms-inline-flexbox",
   "-webkit-inline-box", "-moz-inline-box", "inline-grid"]

/-- How a box stands among others and what is in it. -/
def displayText (outside inside : String) (listItem : Bool) : String :=
  match outside, inside, listItem with
  | "inline", "flow-root", false => "inline-block"
  | "inline", "table", false => "inline-table"
  | "inline", "flex", false => "inline-flex"
  | "inline", "grid", false => "inline-grid"
  | _, _, _ =>
    let usual := if inside = "ruby" then "inline" else "block"
    let out := if outside ≠ usual || (inside = "flow" && !listItem) then [outside] else []
    let within := if inside ≠ "flow" then [inside] else []
    spaced (out ++ within ++ if listItem then ["list-item"] else [])

def display : Reader := fun xs =>
  match keyword displaySingle xs, parts
      [keyword ["list-item"], keyword displayOutside, keyword displayInside] xs with
  | some r, _ => some r
  | none, ([none, none, none], _) => keyword displayLegacy xs
  | none, ([item, outside, inside], rest) =>
    let inside := inside.getD "flow"
    let outside := outside.getD (if inside = "ruby" then "inline" else "block")
    if item.isSome && !(["flow", "flow-root"].contains inside) then none
    else some (displayText outside inside item.isSome, rest)
  | none, _ => none

/-- Growth, shrinking and a basis. -/
def flexText (grow shrink basis : String) : String :=
  if grow = "0" && shrink = "0" && basis = "auto" then "none"
  else
    let bare := grow = "1" && shrink = "1"
    if basis = "0" then spaced [grow, shrink, basis]
    else if basis = "0%" then spaced (grow :: if shrink = "1" then [] else [shrink])
    else if bare then basis
    else spaced (grow :: (if shrink = "1" then [] else [shrink]) ++ [basis])

def growth : Reader := fun xs =>
  match manyUpTo number 2 xs with
  | ([], _) => none
  | (ss, rest) => some (spaced ss, rest)

def flex : Reader := fun xs =>
  match keyword ["none"] xs, parts [growth, lengthPercentageOrAuto] xs with
  | some r, _ => some r
  | none, ([numbers, basis], rest) =>
    let (grow, shrink) :=
      match (numbers.getD "1").splitOn " " with
      | [g, s] => (g, s)
      | g :: _ => (g, "1")
      | [] => ("1", "1")
    some (flexText grow shrink (basis.getD "0%"), rest)
  | none, _ => none

def flexDirection : Reader := keyword ["row", "row-reverse", "column", "column-reverse"]

def flexWrap : Reader := keyword ["nowrap", "wrap", "wrap-reverse"]

def flexFlow : Reader := fun xs => do
  let (read, rest) ← someParts? [flexDirection, flexWrap] xs
  match telling read ["row", "nowrap"] with
  | [] => return ("row", rest)
  | ss => return (spaced ss, rest)

/-! ## Lists and text -/

def image : Reader := one fun
  | .token (.url s) => some (urlText s)
  | .function name [.token (.string s)] =>
    if lowered name = "url" then some (urlText s) else none
  | _ => none

def counterStyle : Reader := one fun
  | .token (.string s) => some (stringText s)
  | .token (.ident name) =>
    let reserved := ["inherit", "initial", "unset", "revert", "revert-layer", "none"]
    if reserved.contains (lowered name) then none
    else some (identText name)
  | _ => none

/-- A position, an image and a counter style; `none` is for whatever is not there. -/
def listStyle : Reader := fun xs => do
  let none' := keyword ["none"]
  let place := keyword ["inside", "outside"]
  let (read, rest) ← someParts? [none', none', image, place, counterStyle] xs
  match read with
  | [one, two, image, place, style] =>
    let nones := one.toList.length + two.toList.length
    if 2 < nones + image.toList.length + style.toList.length then failure
    let style := if style.isNone && 0 < nones then some "none" else style
    let style := if image.isSome && nones = 0 && style.isNone then none else style
    match telling [place, image, style] ["outside", "none", "disc"] with
    | [] => return ("outside", rest)
    | ss => return (spaced ss, rest)
  | _ => none

def decorationLines : List String := ["underline", "overline", "line-through", "blink"]

/-- Lines in a fixed order, or none. -/
def decorationLine : Reader := fun xs =>
  match keyword ["none", "spelling-error", "grammar-error"] xs with
  | some r => some r
  | none => do
    let (read, rest) ← someParts? (decorationLines.map fun l => keyword [l]) xs
    return (spaced (read.filterMap id), rest)

def decorationStyle : Reader := keyword ["solid", "double", "dotted", "dashed", "wavy"]

def decorationThickness : Reader := (keyword ["auto", "from-font"]).or lengthPercentage

def textDecoration : Reader := fun xs => do
  let (read, rest) ←
    someParts? [decorationLine, decorationThickness, decorationStyle, colour] xs
  match read with
  | line :: more =>
    let line := line.getD "none"
    if line = "none" then return (line, rest)
    else return (spaced (line :: telling more ["auto", "solid", "currentColor"]), rest)
  | [] => none

/-! ## Fonts -/

def genericFamilies : List String :=
  ["serif", "sans-serif", "cursive", "fantasy", "monospace", "system-ui", "emoji", "math",
   "fangsong", "ui-serif", "ui-sans-serif", "ui-monospace", "ui-rounded", "initial", "inherit",
   "unset", "default", "revert", "revert-layer"]

/-- A family name, as identifiers unless quotes are shorter. -/
def familyText (name : String) : String :=
  let bare := spaced ((name.splitOn " ").map identText)
  let isGeneric := genericFamilies.contains (lowered name)
  if name ≠ "" && !isGeneric && bare.length < name.length + 2 then bare else stringText name

def fontFamily : Reader := fun xs =>
  match keyword genericFamilies xs, xs with
  | some r, _ => some r
  | none, .token (.string s) :: rest => some (familyText s, rest)
  | none, _ =>
    let names := (xs.takeWhile fun x => x.ident?.isSome).filterMap (·.ident?)
    if names.isEmpty then none else some (familyText (spaced names), xs.drop names.length)

def fontSize : Reader :=
  (keyword ["xx-small", "x-small", "small", "medium", "large", "x-large", "xx-large", "xxx-large",
    "smaller", "larger"]).or lengthPercentage

def fontWeight : Reader := (keyword ["normal", "bold", "bolder", "lighter"]).or number

def fontStretch : Reader :=
  keyword ["normal", "ultra-condensed", "extra-condensed", "condensed", "semi-condensed",
    "semi-expanded", "expanded", "extra-expanded", "ultra-expanded"]

def lineHeight : Reader := firstOf [keyword ["normal"], number, lengthPercentage]

/-- Slanted text; the usual angle is left out. -/
def fontStyle : Reader := fun xs =>
  match keyword ["normal", "italic", "oblique"] xs with
  | some ("oblique", rest) =>
    match angle rest with
    | some (a, rest) => some (if a = "14deg" then "oblique" else "oblique " ++ a, rest)
    | none => some ("oblique", rest)
  | r => r

def fontCaps : Reader := keyword ["small-caps"]

/-- Style, weight, caps and stretch in any order, then the size with a line height
and the families. -/
def font : Reader := fun xs => do
  let normal := keyword ["normal"]
  let other := [keyword ["italic", "oblique"], keyword ["bold", "bolder", "lighter"], number,
    fontCaps, fontStretch]
  let (read, rest) := parts (normal :: normal :: normal :: other) xs
  let (size, rest) ← fontSize rest
  let (height, rest) :=
    match rest with
    | x :: rest' =>
      if x.isDelim '/' then
        match lineHeight rest' with
        | some (h, rest) => (some h, rest)
        | none => (none, x :: rest')
      else (none, rest)
    | [] => (none, rest)
  let (families, rest) ← list fontFamily rest
  match read.drop 3 with
  | [style, weight, weightNumber, caps, stretch] =>
    let lead := style.toList ++ caps.toList ++ (weight <|> weightNumber).toList ++ stretch.toList
    let size := size ++ (height.filter (· ≠ "normal")).elim "" (" / " ++ ·)
    return (spaced (lead ++ [size, families]), rest)
  | _ => none

end AuthoredStyle.Css
