import AuthoredStyle.Libraries.Basic
import AuthoredStyle.Value.ColourName
import AuthoredStyle.Value.Normal

/-!
# Notations of colours

A colour is read from any of its notations, in any case: a name, hexadecimal
digits with or without `#`, or one of the functions of channels or of hue.
-/

namespace AuthoredStyle.Value

/-- Channels and alpha from nought to one. -/
structure Rgba where
  red : Float
  green : Float
  blue : Float
  alpha : Float

namespace Rgba

def unit (x : Float) : Float := if x < 0 then 0 else if 1 < x then 1 else x

/-- Channels of one byte each. -/
def ofBytes (r g b a : Nat) : Rgba :=
  ⟨r.toFloat / 255, g.toFloat / 255, b.toFloat / 255, a.toFloat / 255⟩

def ofUnits (channels : Float × Float × Float) (alpha : Float) : Rgba :=
  ⟨unit channels.1, unit channels.2.1, unit channels.2.2, unit alpha⟩

/-! ## Notations -/

def hexDigit? (c : Char) : Option Nat :=
  if c.isDigit then some (c.toNat - '0'.toNat)
  else if 'a' ≤ c ∧ c ≤ 'f' then some (c.toNat - 'a'.toNat + 10)
  else none

/-- One digit stands for two equal ones. -/
def single? (c : Char) : Option Nat := (hexDigit? c).map (17 * ·)

/-- Two digits, or a plus sign and one digit. -/
def double? (c d : Char) : Option Nat :=
  if c = '+' then hexDigit? d
  else do return 16 * (← hexDigit? c) + (← hexDigit? d)

/-- Hexadecimal channels, each of one or of two digits. -/
def ofHex? : List Char → Option Rgba
  | [r, g, b] => do return ofBytes (← single? r) (← single? g) (← single? b) 255
  | [r, g, b, a] => do return ofBytes (← single? r) (← single? g) (← single? b) (← single? a)
  | [r, r', g, g', b, b'] => do
    return ofBytes (← double? r r') (← double? g g') (← double? b b') 255
  | [r, r', g, g', b, b', a, a'] => do
    return ofBytes (← double? r r') (← double? g g') (← double? b b') (← double? a a')
  | _ => none

/-- A percentage as its hundredth. -/
def percent? (s : List Char) : Option Float := do
  return (← Decimal.readFloat? (← Text.dropEnding? ['%'] s)) / 100

def halfTurn : Float := 180

def pi : Float := 3.141592653589793

/-- An angle in degrees. -/
def angle? (s : List Char) : Option Float :=
  match Text.dropEnding? ['d', 'e', 'g'] s with
  | some t => Decimal.readFloat? t
  | none =>
  match Text.dropEnding? ['g', 'r', 'a', 'd'] s with
  | some t => (Decimal.readFloat? t).map (· * 360 / 400)
  | none =>
  match Text.dropEnding? ['r', 'a', 'd'] s with
  | some t => (Decimal.readFloat? t).map (· * (halfTurn / pi))
  | none =>
  match Text.dropEnding? ['t', 'u', 'r', 'n'] s with
  | some t => (Decimal.readFloat? t).map (· * 360)
  | none => Decimal.readFloat? s

/-- Three channels, all percentages or all numbers up to 255. -/
def channels? (r g b : List Char) : Option (Float × Float × Float) :=
  match percent? r, percent? g, percent? b with
  | some r, some g, some b => some (r, g, b)
  | none, none, none => do
    return ((← Decimal.readFloat? r) / 255, (← Decimal.readFloat? g) / 255,
      (← Decimal.readFloat? b) / 255)
  | _, _, _ => none

/-! ## Hues -/

/-- Degrees from nought up to a full turn. -/
def wholeTurn (degrees : Float) : Float :=
  let t := Decimal.remainder degrees 360
  if t < 0 then t + 360 else t

/-- The level of one channel at a hue in sixths of a turn. -/
def level (low high sixths : Float) : Float :=
  let h := Decimal.remainder (Decimal.remainder sixths 6 + 6) 6
  if h < 1 then low + (high - low) * h
  else if h < 3 then high
  else if h < 4 then low + (high - low) * (4 - h)
  else low

def ofHsl (hue saturation lightness : Float) : Float × Float × Float :=
  if saturation == 0 then (lightness, lightness, lightness)
  else
    let high := if lightness < 0.5 then lightness * (1 + saturation)
      else lightness + saturation - lightness * saturation
    let low := 2 * lightness - high
    let h := hue / 60
    (level low high (h + 2), level low high h, level low high (h - 2))

def ofHwb (hue white black : Float) : Float × Float × Float :=
  if 1 ≤ white + black then
    let l := white / (white + black)
    (l, l, l)
  else
    let (r, g, b) := ofHsl hue 1 0.5
    let share (x : Float) : Float := x * (1 - white - black) + white
    (share r, share g, share b)

def ofHsv (hue saturation value : Float) : Float × Float × Float :=
  let lightness := (2 - saturation) * value / 2
  let saturation :=
    if lightness == 0 then saturation
    else if lightness == 1 then 0
    else if lightness < 0.5 then saturation * value / (lightness * 2)
    else saturation * value / (2 - lightness * 2)
  ofHsl hue saturation lightness

/-- A hue and two percentages. -/
def hued? (channels : Float → Float → Float → Float × Float × Float) (h s t : List Char) :
    Option (Float × Float × Float) := do
  return channels (wholeTurn (← angle? h)) (unit (← percent? s)) (unit (← percent? t))

def ofCall? (name : List Char) (a b c : List Char) (alpha : Float) : Option Rgba := do
  let channels ←
    match String.ofList name with
    | "rgb" | "rgba" => channels? a b c
    | "hsl" | "hsla" => hued? ofHsl a b c
    | "hwb" | "hwba" => hued? ofHwb a b c
    | "hsv" | "hsva" => hued? ofHsv a b c
    | _ => none
  return ofUnits channels alpha

/-- A name and what stands in the parentheses behind it. -/
def call? (s : List Char) : Option (List Char × List Char) := do
  let (name, arguments) ← Text.cut? ['('] s
  return (Text.trimEnd name, ← Text.dropEnding? [')'] arguments)

/-- ASCII letters in lower case, and the Kelvin sign, whose lower case is one. -/
def lowerLetter (c : Char) : Char := if c = '\u212A' then 'k' else c.toLower

def ofText? (text : List Char) : Option Rgba :=
  let s := (Text.trim text).map lowerLetter
  if s = "transparent".toList then some ⟨0, 0, 0, 0⟩
  else
    match namedColour? (String.ofList s), s with
    | some n, _ => some (ofBytes (n / 65536) (n / 256 % 256) (n % 256) 255)
    | none, '#' :: digits => ofHex? digits
    | none, _ =>
      match call? s with
      | none => ofHex? s
      | some (name, arguments) =>
        match Text.runs isChannelGap arguments with
        | [a, b, c] => ofCall? name a b c 1
        | [a, b, c, d] => (alpha? d).bind (ofCall? name a b c)
        | _ => none

/-! ## Bytes -/

def byte (x : Float) : UInt8 := (x * 255).round.toUInt8

def bytes (c : Rgba) : ByteColour := ⟨byte c.red, byte c.green, byte c.blue, c.alpha⟩

end Rgba

end AuthoredStyle.Value
