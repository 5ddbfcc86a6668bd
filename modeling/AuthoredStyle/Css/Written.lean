import AuthoredStyle.Css.Component
import AuthoredStyle.Decimal.Written

/-!
# How tokens are written

A number has at most six significant digits, and no digit nought in front of its
point where it stands in a value. Names are escaped where they must be, and strings
stand in double quotes.
-/

namespace AuthoredStyle.Css

/-! ## Numbers -/

/-- Halves are rounded up. -/
def roundHalfUp (num den : Nat) : Nat := (2 * num + den) / (2 * den)

/-- At most six digits and the place of the point in them. -/
def significant (mantissa : Nat) (exponent : Int) : Nat × Int :=
  let point := Decimal.leading mantissa exponent
  let (num, den) := Decimal.ratio mantissa exponent
  let scale := 6 - point
  let n := if 0 ≤ scale then roundHalfUp (num * Nat.pow 10 scale.toNat) den
    else roundHalfUp num (den * Nat.pow 10 (-scale).toNat)
  -- the first digit may be nought, or rounding may have added a digit
  if n < 100000 then
    let scale := scale + 1
    (if 0 ≤ scale then roundHalfUp (num * Nat.pow 10 scale.toNat) den
      else roundHalfUp num (den * Nat.pow 10 (-scale).toNat), point - 1)
  else (n, point)

/-- Digits with a point, or with an exponent when the number is very large or small. -/
def placed (digits : List Char) (point : Int) : List Char :=
  let count : Int := digits.length
  if 0 < point ∧ point ≤ 21 then
    if count ≤ point then digits ++ List.replicate (point - count).toNat '0'
    else digits.take point.toNat ++ '.' :: digits.drop point.toNat
  else if -6 < point ∧ point ≤ 0 then
    '0' :: '.' :: (List.replicate (-point).toNat '0' ++ digits)
  else
    let mantissa :=
      match digits with
      | [d] => [d]
      | d :: ds => d :: '.' :: ds
      | [] => []
    mantissa ++ 'e' :: (toString (point - 1)).toList

def digitsText (x : Float32) : List Char :=
  match Decimal.Binary.ofFloat x.toFloat with
  | .notANumber => ['N', 'a', 'N']
  | .infinite negative => Decimal.signed negative ['i', 'n', 'f']
  | .finite _ 0 _ => ['0']
  | .finite negative mantissa exponent =>
    let (n, point) := significant mantissa exponent
    let all := Nat.toDigits 10 n
    let point := point + (all.length - 6)
    let digits := (all.reverse.dropWhile (· = '0')).reverse
    Decimal.signed negative (placed digits point)

/-- Without the nought in front of the point. -/
def shortened : List Char → List Char
  | '-' :: '0' :: '.' :: s => '-' :: '.' :: s
  | '0' :: '.' :: s => '.' :: s
  | s => s

def numberText (x : Float32) : String := String.ofList (shortened (digitsText x))

def percentText (x : Float32) : String :=
  String.ofList (shortened (digitsText (x * 100))) ++ "%"

/-! ## Names and strings -/

def hexEscape (c : Char) : List Char := '\\' :: Nat.toDigits 16 c.toNat ++ [' ']

def nameChar (c : Char) : List Char :=
  if c = '\x00' then [replacement]
  else if c.isAlpha || c.isDigit || c = '-' || c = '_' || 0x80 ≤ c.toNat then [c]
  else if c.toNat < 0x20 || c = '\x7F' then hexEscape c
  else ['\\', c]

/-- A name with escapes, also for a digit where a name cannot start with it. -/
def identChars (s : List Char) : List Char :=
  match s with
  | ['-'] => ['\\', '-']
  | '-' :: '-' :: t => '-' :: '-' :: t.flatMap nameChar
  | '-' :: c :: t =>
    '-' :: ((if c.isDigit then hexEscape c else nameChar c) ++ t.flatMap nameChar)
  | c :: t => (if c.isDigit then hexEscape c else nameChar c) ++ t.flatMap nameChar
  | [] => []

def identText (name : String) : String := String.ofList (identChars name.toList)

def stringChar (c : Char) : List Char :=
  if c = '"' then ['\\', '"']
  else if c = '\\' then ['\\', '\\']
  else if c = '\x00' then [replacement]
  else if c.toNat < 0x20 || c = '\x7F' then hexEscape c
  else [c]

def stringText (content : String) : String :=
  String.ofList ('"' :: content.toList.flatMap stringChar ++ ['"'])

def urlText (address : String) : String := "url(" ++ stringText address ++ ")"

/-- A unit that would read as an exponent has its letter escaped. -/
def unitText (unit : String) : String :=
  match unit.toList with
  | ['e'] | ['E'] => "\\65 "
  | 'e' :: '-' :: s | 'E' :: '-' :: s => "\\65 " ++ String.ofList ('-' :: s.flatMap nameChar)
  | _ => identText unit

def dimensionText (x : Float32) (unit : String) : String :=
  let zero := if x == 0 && x.toFloat.toBits ≠ 0 then "-0" else numberText x
  zero ++ unitText unit

end AuthoredStyle.Css
