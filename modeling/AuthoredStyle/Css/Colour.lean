import AuthoredStyle.Css.Written
import AuthoredStyle.Value.Rgba

/-!
# Colours in their shortest form

A colour with four byte channels is written by its name if that is shorter, else in
hexadecimal digits, as few as will do. Its notations are a name, digits behind `#`
and the functions of channels or of a hue.
-/

namespace AuthoredStyle.Css

/-- Names that are shorter than the digits. -/
def shortNames : List (Nat × String) :=
  [(0x000080, "navy"), (0x008000, "green"), (0x008080, "teal"), (0x4B0082, "indigo"),
   (0x800000, "maroon"), (0x800080, "purple"), (0x808000, "olive"), (0x808080, "gray"),
   (0xA0522D, "sienna"), (0xA52A2A, "brown"), (0xC0C0C0, "silver"), (0xCD853F, "peru"),
   (0xD2B48C, "tan"), (0xDA70D6, "orchid"), (0xDDA0DD, "plum"), (0xEE82EE, "violet"),
   (0xF0E68C, "khaki"), (0xF0FFFF, "azure"), (0xF5DEB3, "wheat"), (0xF5F5DC, "beige"),
   (0xFA8072, "salmon"), (0xFAF0E6, "linen"), (0xFF0000, "red"), (0xFF6347, "tomato"),
   (0xFF7F50, "coral"), (0xFFA500, "orange"), (0xFFC0CB, "pink"), (0xFFD700, "gold"),
   (0xFFE4C4, "bisque"), (0xFFFAFA, "snow"), (0xFFFFF0, "ivory")]

/-- Colours of the system, which have no channels. -/
def systemColours : List String :=
  ["accentcolor", "accentcolortext", "activetext", "buttonborder", "buttonface", "buttontext",
   "canvas", "canvastext", "field", "fieldtext", "graytext", "highlight", "highlighttext",
   "linktext", "mark", "marktext", "selecteditem", "selecteditemtext", "visitedtext"]

def byteDigits (n : Nat) : List Char := [(n / 16).digitChar, (n % 16).digitChar]

/-- One digit for each channel if all channels have two equal ones. -/
def channelDigits (channels : List Nat) : List Char :=
  if channels.all (fun n => n / 16 = n % 16) then channels.map fun n => (n % 16).digitChar
  else channels.flatMap byteDigits

/-- A colour of four bytes. -/
structure Channels where
  red : Nat
  green : Nat
  blue : Nat
  alpha : Nat
  deriving DecidableEq, Repr

namespace Channels

def text (c : Channels) : String :=
  if c.alpha = 255 then
    match shortNames.lookup (65536 * c.red + 256 * c.green + c.blue) with
    | some name => name
    | none => String.ofList ('#' :: channelDigits [c.red, c.green, c.blue])
  else String.ofList ('#' :: channelDigits [c.red, c.green, c.blue, c.alpha])

def byte (x : Float) : Nat := x.round.toUInt8.toNat

/-- From channels between nought and one. -/
def ofUnits (c : Float × Float × Float) (alpha : Float) : Channels :=
  ⟨byte (c.1 * 255), byte (c.2.1 * 255), byte (c.2.2 * 255), byte (alpha * 255)⟩

def ofHash? (digits : List Char) : Option Channels := do
  let values ← digits.mapM hexDigit?
  match values with
  | [r, g, b] => some ⟨17 * r, 17 * g, 17 * b, 255⟩
  | [r, g, b, a] => some ⟨17 * r, 17 * g, 17 * b, 17 * a⟩
  | [r, r', g, g', b, b'] => some ⟨16 * r + r', 16 * g + g', 16 * b + b', 255⟩
  | [r, r', g, g', b, b', a, a'] =>
    some ⟨16 * r + r', 16 * g + g', 16 * b + b', 16 * a + a'⟩
  | _ => none

end Channels

/-! ## Functions -/

/-- A number, or a percentage as its share of a whole. -/
def share? (whole : Float) : Component → Option Float
  | .token (.number n) => some n.value.toFloat
  | .token (.percentage n) => some (n.value.toFloat * whole)
  | _ => none

def unitShare? (x : Component) : Option Float := (share? 1 x).map Value.Rgba.unit

def percentage? : Component → Option Float
  | .token (.percentage n) => some n.value.toFloat
  | _ => none

/-- An angle in degrees; a number counts as degrees. -/
def degrees? : Component → Option Float
  | .token (.number n) => some n.value.toFloat
  | .token (.dimension n unit) =>
    let x := n.value.toFloat
    match String.ofList (Text.lower unit.toList) with
    | "deg" => some x
    | "grad" => some (x * 360 / 400)
    | "rad" => some (x * 180 / Value.Rgba.pi)
    | "turn" => some (x * 360)
    | _ => none
  | _ => none

/-- Three arguments and an alpha: with commas between all, or with a slash before
the alpha and no comma. -/
def colourArguments? (xs : List Component) :
    Option (Component × Component × Component × Option Component) :=
  let comma := (·.isToken .comma : Component → Bool)
  match withoutGaps xs with
  | [a, b, c] => some (a, b, c, none)
  | [a, x, b, y, c] =>
    if comma x && comma y then some (a, b, c, none) else alphaBehindSlash a x b y c
  | [a, x, b, y, c, z, d] => if comma x && comma y && comma z then some (a, b, c, some d) else none
  | _ => none
where
  alphaBehindSlash (a b c slash d : Component) :
      Option (Component × Component × Component × Option Component) :=
    if slash.isDelim '/' then some (a, b, c, some d) else none

/-- Channels that are all numbers or, where commas stand, all percentages. -/
def channelBytes? (a b c : Component) : Option (Float × Float × Float) := do
  return ((← share? 255 a) / 255, (← share? 255 b) / 255, (← share? 255 c) / 255)

def colourFunction? (name : String) (xs : List Component) : Option Channels := do
  let (a, b, c, d) ← colourArguments? xs
  let alpha ←
    match d with
    | none => some 1
    | some d => unitShare? d
  let channels ←
    match name with
    | "rgb" | "rgba" =>
      let mixed := (percentage? a).isSome ≠ (percentage? b).isSome ||
        (percentage? a).isSome ≠ (percentage? c).isSome
      if mixed && xs.any (·.isToken .comma) then none else channelBytes? a b c
    | "hsl" | "hsla" =>
      some (Value.Rgba.ofHsl (Value.Rgba.wholeTurn (← degrees? a))
        (Value.Rgba.unit (← percentage? b)) (Value.Rgba.unit (← percentage? c)))
    | "hwb" =>
      some (Value.Rgba.ofHwb (Value.Rgba.wholeTurn (← degrees? a))
        (Value.Rgba.unit (← percentage? b)) (Value.Rgba.unit (← percentage? c)))
    | _ => none
  return .ofUnits channels alpha

/-- A colour that stands for itself among any tokens. -/
def plainColour? : Component → Option String
  | .token (.hash name _) => (Channels.ofHash? name.toList).map (·.text)
  | .function name xs =>
    (colourFunction? (String.ofList (Text.lower name.toList)) xs).map (·.text)
  | _ => none

def colourOfName? (name : String) : Option String :=
  if name = "currentcolor" then some "currentColor"
  else if name = "transparent" then some (Channels.mk 0 0 0 0).text
  else if systemColours.contains name then some name
  else (Value.namedColour? name).map fun n =>
    (Channels.mk (n / 65536) (n / 256 % 256) (n % 256) 255).text

def colour? (x : Component) : Option String :=
  plainColour? x <|> x.keyword?.bind colourOfName?

end AuthoredStyle.Css
