import AuthoredStyle.Decimal.Written
import AuthoredStyle.Property.Table
import AuthoredStyle.Value.Colour

/-!
# Values the way an author writes them

A computed value is turned back into authored form: opaque colours become
hexadecimal, a line height in pixels becomes a factor of the element's own font
size, and a letter spacing in pixels becomes ems. Other values stay.
-/

namespace AuthoredStyle.Value

/-- The number in front of a final `px`, blanks around it aside. -/
def px? (s : List Char) : Option Float := do
  let number ← Text.dropEnding? ['p', 'x'] (Text.trim s)
  Decimal.readFloat? (Text.trim number)

def dropZeros (s : List Char) : List Char := (s.reverse.dropWhile (· = '0')).reverse

def dropPoint (s : List Char) : List Char := (s.reverse.dropWhile (· = '.')).reverse

/-- Four places at most, without trailing zeros, and no negative zero. -/
def ratioText (x : Float) : String :=
  match String.ofList (dropPoint (dropZeros (Decimal.fixed 4 x).toList)) with
  | "" => "0"
  | "-0" => "0"
  | s => s

/-- A pixel length as a multiple of a positive font size, otherwise unchanged. -/
def relative (value : String) (fontSize : Float) (write : Float → String) : String :=
  match px? value.toList with
  | some px => if 0 < fontSize then write (px / fontSize) else value
  | none => value

def unitless (value : String) (fontSize : Float) : String := relative value fontSize ratioText

def ems (value : String) (fontSize : Float) : String :=
  relative value fontSize fun x => ratioText x ++ "em"

def hexColour (value : String) : String := String.ofList (hexColours value.toList)

def normalize (property value : String) (fontSize : Option Float) : String :=
  if Property.isColoured property then hexColour value
  else
    match property, fontSize with
    | "line-height", some size => unitless value size
    | "letter-spacing", some size => ems value size
    | _, _ => value

end AuthoredStyle.Value
