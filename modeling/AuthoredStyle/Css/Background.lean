import AuthoredStyle.Css.Shorthand

/-!
# Backgrounds

A background is made of layers, each with an image, its place, size and repetition;
the last may have a colour. A place is written as a pair of lengths where that says
the same, and as one of them where the other is the centre.
-/

namespace AuthoredStyle.Css

open Reader

/-! ## Places -/

/-- One coordinate of a place: a side, the centre or a length from the first side. -/
inductive Coordinate where
  | first (name : String)
  | last (name : String)
  | centre
  | at (length : String)
  deriving DecidableEq, Repr

namespace Coordinate

def isCentre (c : Coordinate) : Bool := c = centre || c = .at "50%"

/-- The coordinate as a length. -/
def text : Coordinate → String
  | first _ => "0"
  | last _ => "100%"
  | centre => "50%"
  | .at length => length

end Coordinate

def horizontal? : Component → Option Coordinate := fun x =>
  match x.keyword? with
  | some "left" => some (.first "left")
  | some "right" => some (.last "right")
  | _ => none

def vertical? : Component → Option Coordinate := fun x =>
  match x.keyword? with
  | some "top" => some (.first "top")
  | some "bottom" => some (.last "bottom")
  | _ => none

def centre? (x : Component) : Option Coordinate :=
  if x.keyword? = some "center" then some .centre else none

def distance? (x : Component) : Option Coordinate := (whole? lengthPercentage [x]).map .at

def across? (x : Component) : Option Coordinate := horizontal? x <|> centre? x <|> distance? x

def down? (x : Component) : Option Coordinate := vertical? x <|> centre? x <|> distance? x

/-- The two coordinates and what follows; a missing one is the centre. -/
def place? (xs : List Component) : Option (Coordinate × Coordinate × List Component) :=
  match xs with
  | x :: y :: rest =>
    match across? x, down? y, vertical? x <|> centre? x, horizontal? y <|> centre? y with
    | some h, some v, _, _ => some (h, v, rest)
    | _, _, some v, some h => some (h, v, rest)
    | some h, none, _, _ => some (h, .centre, y :: rest)
    | none, _, some v, none => some (.centre, v, y :: rest)
    | none, _, none, _ => none
  | [x] =>
    match across? x, vertical? x with
    | some h, _ => some (h, .centre, [])
    | none, some v => some (.centre, v, [])
    | none, none => none
  | [] => none

def placeText (h v : Coordinate) : String :=
  if h.isCentre && v.isCentre then if h = .centre then "center" else h.text
  else if v.isCentre then h.text
  else
    match h, v with
    | .centre, .first name | .centre, .last name => name
    | .at "50%", .first name | .at "50%", .last name => name
    | _, _ => spaced [h.text, v.text]

def place : Reader := fun xs => (place? xs).map fun (h, v, rest) => (placeText h v, rest)

/-! ## Parts of a layer -/

def layerSize : Reader := fun xs =>
  match keyword ["cover", "contain"] xs, manyUpTo lengthPercentageOrAuto 2 xs with
  | some r, _ => some r
  | none, ([w], rest) => some (w, rest)
  | none, ([w, h], rest) => some (if h = "auto" then w else spaced [w, h], rest)
  | none, _ => none

def repeatText : List String → String
  | ["repeat", "no-repeat"] => "repeat-x"
  | ["no-repeat", "repeat"] => "repeat-y"
  | [a, b] => if a = b then a else spaced [a, b]
  | ss => spaced ss

def layerRepeat : Reader := fun xs =>
  match keyword ["repeat-x", "repeat-y"] xs,
      manyUpTo (keyword ["repeat", "space", "round", "no-repeat"]) 2 xs with
  | some r, _ => some r
  | none, ([], _) => none
  | none, (ss, rest) => some (repeatText ss, rest)

def attachment : Reader := keyword ["scroll", "fixed", "local"]

def boxName : Reader := keyword ["border-box", "padding-box", "content-box"]

def gradientNames : List String :=
  ["linear-gradient", "radial-gradient", "conic-gradient", "repeating-linear-gradient",
   "repeating-radial-gradient", "repeating-conic-gradient"]

/-- A colour or a place among the stops of a gradient, or else a word as it is. -/
def gradientWord : Reader :=
  firstOf [colour, lengthPercentage, angle, one fun x => x.keyword?]

def gradientPart? (xs : List Component) : Option String :=
  match manyUpTo gradientWord xs.length xs with
  | ([], _) => none
  | (ss, []) => some (spaced ss)
  | _ => none

/-- The direction that a gradient has anyway is left out. -/
def gradient : Reader := one fun
  | .function name xs =>
    if !gradientNames.contains (lowered name) || holdsVariable xs then none
    else do
      let ss ← (splitCommas (withoutGaps xs)).mapM gradientPart?
      let ss :=
        match ss with
        | s :: more => if s = "to bottom" || s = "180deg" then more else s :: more
        | [] => []
      return lowered name ++ "(" ++ ", ".intercalate ss ++ ")"
  | _ => none

def layerImage : Reader := firstOf [keyword ["none"], image, gradient]

/-- A place with a size behind a slash; a place that is the initial one is told from
others by its words. -/
def placeAndSize : Reader := fun xs => do
  let (h, v, rest) ← place? xs
  let initial := (h = .at "0" || h = .at "0%") && (v = .at "0" || v = .at "0%")
  let text := placeText h v
  match rest with
  | x :: rest' =>
    match if x.isDelim '/' then layerSize rest' else none with
    | some (size, rest) =>
      return (if size = "auto" then (if initial then "" else text) else text ++ " / " ++ size, rest)
    | none => return (if initial then "" else text, rest)
  | [] => return (if initial then "" else text, rest)

/-- One layer; a layer that says nothing is `none`. -/
def layer? (xs : List Component) : Option String := do
  let (read, rest) ← someParts?
    [colour, placeAndSize, layerImage, layerRepeat, attachment, boxName, boxName] xs
  if !rest.isEmpty then failure
  match read with
  | [colour, place, image, repetition, attachment, origin, clip] =>
    let clip := (clip <|> origin).getD "border-box"
    let origin := origin.getD "padding-box"
    let showsOrigin := origin ≠ "padding-box" || clip ≠ "border-box"
    let boxes := (if showsOrigin then [origin] else []) ++
      if showsOrigin && clip ≠ origin then [clip] else []
    let telling := telling [colour, image, place, repetition, attachment]
      ["#0000", "none", "", "repeat", "scroll"]
    match telling ++ boxes with
    | [] => return "none"
    | ss => return spaced ss
  | _ => none

def background : Reader := fun xs =>
  ((splitCommas xs).mapM layer?).map fun ss => (", ".intercalate ss, [])

end AuthoredStyle.Css
