import AuthoredStyle.Decimal.Binary
import AuthoredStyle.Text.Search

/-!
# Decimal numerals

A numeral is an optional sign and either `inf`, `infinity` or `nan` in any
case, or digits with at most one point and an optional exponent, with at least
one digit beside the point. Neither blanks nor digit separators belong to it.
The value is the binary64 number nearest to what is written.
-/

namespace AuthoredStyle.Decimal

inductive Numeral where
  | notANumber
  | infinite (negative : Bool)
  | finite (negative : Bool) (digits : Nat) (exponent : Int)
  deriving DecidableEq, Repr

def digitsValue (s : List Char) : Nat :=
  s.foldl (fun n c => 10 * n + (c.toNat - '0'.toNat)) 0

/-- An unsigned whole number, at least one digit. -/
def whole? (s : List Char) : Option Nat :=
  if s.isEmpty || !s.all Char.isDigit then none else some (digitsValue s)

/-- A whole number of at most 64 bits, with or without a plus sign. -/
def word? (s : List Char) : Option Nat :=
  let digits := match s with
    | '+' :: rest => rest
    | rest => rest
  (whole? digits).filter (· < Nat.pow 2 64)

/-- A sign and the text behind it; a missing sign is positive. -/
def unsign : List Char → Bool × List Char
  | '-' :: s => (true, s)
  | '+' :: s => (false, s)
  | s => (false, s)

namespace Numeral

def exponent? : List Char → Option Int
  | [] => some 0
  | c :: s =>
    if c = 'e' ∨ c = 'E' then
      let (negative, digits) := unsign s
      (whole? digits).map fun n => if negative then -(n : Int) else n
    else none

def magnitude? (negative : Bool) (s : List Char) : Option Numeral :=
  let whole := s.takeWhile Char.isDigit
  let (fraction, tail) :=
    match s.dropWhile Char.isDigit with
    | '.' :: rest => (rest.takeWhile Char.isDigit, rest.dropWhile Char.isDigit)
    | rest => ([], rest)
  if whole.isEmpty && fraction.isEmpty then none
  else (exponent? tail).map fun e =>
    .finite negative (digitsValue (whole ++ fraction)) (e - fraction.length)

def read? (s : List Char) : Option Numeral :=
  let (negative, rest) := unsign s
  match String.ofList (Text.lower rest) with
  | "nan" => some .notANumber
  | "inf" => some (.infinite negative)
  | "infinity" => some (.infinite negative)
  | _ => magnitude? negative rest

/-- Exponents far outside the range of binary64 are decided without computing
their powers. -/
def toFloat : Numeral → Float
  | .notANumber => .ofBits 0x7FF8000000000000
  | .infinite negative => .ofBits (if negative then 0xFFF0000000000000 else 0x7FF0000000000000)
  | .finite negative digits exponent =>
    let scale := exponent + (Nat.toDigits 10 digits).length
    if digits = 0 ∨ scale < -400 then nearestFloat negative 0 1
    else if 400 < scale then nearestFloat negative (Nat.pow 2 1100) 1
    else if 0 ≤ exponent then nearestFloat negative (digits * Nat.pow 10 exponent.toNat) 1
    else nearestFloat negative digits (Nat.pow 10 (-exponent).toNat)

end Numeral

def readFloat? (s : List Char) : Option Float := (Numeral.read? s).map Numeral.toFloat

end AuthoredStyle.Decimal
