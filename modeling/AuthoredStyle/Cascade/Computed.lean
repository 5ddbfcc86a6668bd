import AuthoredStyle.Libraries.Basic
import AuthoredStyle.Property.Table
import AuthoredStyle.Value.Normal

/-!
# Computed values of an element

Every property worth extracting gets a value: the declared one in the form a
browser reports it, the parent's where it is inherited, or the initial one.
Lengths in ems refer to the element's own font size, which is therefore computed
first and from the parent's. Box and axis shorthands are composed from their
longhands.
-/

namespace AuthoredStyle.Cascade

open Value (px? ratioText)

def rootFontSize : Float := 16

/-- Properties whose bare numbers are no lengths. -/
def bareNumbers : List String :=
  ["z-index", "opacity", "flex", "flex-grow", "flex-shrink", "font-weight", "line-height"]

/-- Shorthands that are reported from their longhands. -/
def composed : List String := ["margin", "padding", "gap", "overflow"]

def pixels (x : Float) : String := ratioText x ++ "px"

/-- The number in front of a unit. -/
def measured? (unit : List Char) (s : List Char) : Option Float := do
  Decimal.readFloat? (← Text.dropEnding? unit s)

/-! ## Font size -/

/-- A keyword's size; any other text leaves the parent's. -/
def keywordSize (keyword : List Char) (parent : Float) : Float :=
  match String.ofList keyword with
  | "xx-small" => 9
  | "x-small" => 10
  | "small" => 13
  | "medium" | "initial" => rootFontSize
  | "large" => 18
  | "x-large" => 24
  | "xx-large" => 32
  | "smaller" => parent / 1.2
  | "larger" => parent * 1.2
  | _ => parent

/-- Pixels, root ems, ems and percentages, in this order, and keywords last. -/
def fontSize (declared : Option String) (parent : Float) : Float :=
  match declared with
  | none => parent
  | some value =>
    let s := Text.trim value.toList
    let number (unit : List Char) : Option Float := do
      Decimal.readFloat? (Text.trim (← Text.dropEnding? unit s))
    ((px? s)
      <|> (number ['r', 'e', 'm']).map (· * rootFontSize)
      <|> (number ['e', 'm']).map (· * parent)
      <|> (number ['%']).map (fun x => parent * x / 100)).getD (keywordSize s parent)

/-! ## Reported values -/

/-- A length in pixels, for nought and for lengths in ems. -/
def absoluteLength? (bare : Bool) (size : Float) (s : List Char) : Option String :=
  if s = ['0'] then if bare then none else some "0px"
  else if (Text.dropEnding? ['r', 'e', 'm'] s).isSome then
    (measured? ['r', 'e', 'm'] s).map fun x => pixels (x * rootFontSize)
  else (measured? ['e', 'm'] s).map fun x => pixels (x * size)

/-- An alpha that is one but for rounding is left out. -/
def colourText (c : ByteColour) : String :=
  let channels := ", ".intercalate ([c.red, c.green, c.blue].map fun x => toString x.toNat)
  if (c.alpha - 1).abs < 0.000001 then "rgb(" ++ channels ++ ")"
  else "rgba(" ++ channels ++ ", " ++ ratioText c.alpha ++ ")"

variable [Libraries]

/-- The reported colour of a part. What starts like a number is none, even if it
reads as hexadecimal digits. -/
def reportedColour? (s : List Char) : Option String :=
  let numeric := s.head?.any fun c => c.isDigit || c = '-' || c = '.'
  if numeric then none else (Libraries.colour? s).map colourText

def reportedPart (property : String) (size : Float) (part : String) : String :=
  let s := part.toList
  let colour := if Property.isColoured property then reportedColour? s else none
  (colour <|> absoluteLength? (bareNumbers.contains property) size s).getD part

def reported (property value : String) (size : Float) : String :=
  let parts := " ".intercalate ((components value).map (reportedPart property size))
  match property, value with
  | "font-weight", "normal" => "400"
  | "font-weight", "bold" => "700"
  | "line-height", _ =>
    match Decimal.readFloat? value.toList with
    | some factor => pixels (factor * size)
    | none => parts
  | _, _ => parts

/-- The value that a property gets by itself, shorthands composed later aside. -/
def ownValue (tag : String) (declared : Dict String) (parent : Option (Dict String))
    (size : Float) (property : String) : String :=
  let initial := Property.initial tag property
  let inherited := (parent.bind (·.get? property)).getD initial
  let unset := if Property.isInherited property then inherited else initial
  match (declared.get? property).map fun v => String.ofList (Text.trim v.toList) with
  | none | some "unset" => unset
  | some "inherit" => inherited
  | some "initial" => initial
  | some value => reported property value size

/-- The shortest form of four sides, or of two axes. -/
def compose : List String → String
  | [t, r, b, l] =>
    if l ≠ r then " ".intercalate [t, r, b, l]
    else if t ≠ b then " ".intercalate [t, r, b]
    else if t ≠ r then " ".intercalate [t, r]
    else t
  | [a, b] => if a = b then a else " ".intercalate [a, b]
  | parts => " ".intercalate parts

/-- The computed values of an element, given those of its parent. -/
def computedValues (tag : String) (declared : Dict String) (parent : Option (Dict String)) :
    Dict String :=
  let parentValue := parent.bind (·.get? "font-size")
  let parentSize := (parentValue.bind fun v => px? v.toList).getD rootFontSize
  let size := fontSize (declared.get? "font-size") parentSize
  let alone := Property.important.filter fun p => !(p = "font-size" || composed.contains p)
  let values := Dict.ofList (("font-size", pixels size) ::
    alone.map fun p => (p, ownValue tag declared parent size p))
  composed.foldl (fun values p =>
    values.insert p (compose ((Property.longhands p).map fun l => (values.get? l).getD ""))) values

end AuthoredStyle.Cascade
