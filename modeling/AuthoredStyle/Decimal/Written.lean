import AuthoredStyle.Decimal.Binary

/-!
# Writing binary64 numbers in decimal

Two forms, both positional and without an exponent. `fixed` rounds the exact
value to a number of places, a tie going to the even digit. `shortest` writes
the fewest digits that read back as the same number and, of those, the digits
nearest to it.
-/

namespace AuthoredStyle.Decimal

def signed (negative : Bool) (s : List Char) : List Char := if negative then '-' :: s else s

/-- `n / 10 ^ places` written out, with at least one digit before the point. -/
def pointed (places n : Nat) : List Char :=
  let digits := Nat.toDigits 10 n
  let padded := List.replicate (places + 1 - digits.length) '0' ++ digits
  let split := padded.length - places
  if places = 0 then padded else padded.take split ++ '.' :: padded.drop split

/-- The exact value as a ratio of naturals. -/
def ratio (mantissa : Nat) (exponent : Int) : Nat × Nat :=
  if 0 ≤ exponent then (mantissa * Nat.pow 2 exponent.toNat, 1)
  else (mantissa, Nat.pow 2 (-exponent).toNat)

def fixed (places : Nat) (x : Float) : String :=
  String.ofList <|
    match Binary.ofFloat x with
    | .notANumber => ['N', 'a', 'N']
    | .infinite negative => signed negative ['i', 'n', 'f']
    | .finite negative mantissa exponent =>
      let (num, den) := ratio mantissa exponent
      signed negative (pointed places (roundRatio (num * Nat.pow 10 places) den))

/-- The bounds of the reals that round to `mantissa * 2 ^ exponent`, in units
of a quarter of the last bit, and whether the bounds themselves belong. -/
def interval (mantissa : Nat) (exponent : Int) : Nat × Nat × Bool :=
  let atBinade := mantissa = Nat.pow 2 52 ∧ -1074 < exponent
  let low := if atBinade then 4 * mantissa - 1 else 4 * mantissa - 2
  (low, 4 * mantissa + 2, mantissa % 2 == 0)

/-- The multiple of `10 ^ power` nearest to the value that still reads back as
it, if any does; the upper neighbour wins an exact tie only when it is even. -/
def onGrid? (mantissa : Nat) (exponent : Int) (power : Int) : Option Nat :=
  let (low, high, closed) := interval mantissa exponent
  -- all quantities below are scaled to `value * num / den` grid steps
  let (num, den) := ratio 1 (exponent - 2)
  let (num, den) := if 0 ≤ power then (num, den * Nat.pow 10 power.toNat)
    else (num * Nat.pow 10 (-power).toNat, den)
  let inside (n : Nat) : Bool :=
    if closed then low * num ≤ n * den && n * den ≤ high * num
    else low * num < n * den && n * den < high * num
  let value := 4 * mantissa * num
  let nearest := roundRatio value den
  let other := if nearest * den ≤ value then nearest + 1 else nearest - 1
  if inside nearest then some nearest else if inside other then some other else none

/-- Grids from coarse to fine; seventeen digits always suffice. -/
def coarsest? (mantissa : Nat) (exponent : Int) (top : Int) : Nat → Option (Nat × Int)
  | 0 => none
  | steps + 1 =>
    match onGrid? mantissa exponent top with
    | some n => if n = 0 then coarsest? mantissa exponent (top - 1) steps else some (n, top)
    | none => coarsest? mantissa exponent (top - 1) steps

/-- The decimal exponent of the leading digit, or one more. -/
def leading (mantissa : Nat) (exponent : Int) : Int :=
  let (num, den) := ratio mantissa exponent
  if den ≤ num then ((Nat.toDigits 10 (num / den)).length : Int)
  else 1 - ((Nat.toDigits 10 (den / num)).length : Int)

def shortest (x : Float) : String :=
  String.ofList <|
    match Binary.ofFloat x with
    | .notANumber => ['N', 'a', 'N']
    | .infinite negative => signed negative ['i', 'n', 'f']
    | .finite negative 0 _ => signed negative ['0']
    | .finite negative mantissa exponent =>
      match coarsest? mantissa exponent (leading mantissa exponent) 20 with
      | some (n, power) =>
        signed negative <|
          if 0 ≤ power then pointed 0 (n * Nat.pow 10 power.toNat) else pointed (-power).toNat n
      | none => signed negative ['0']

end AuthoredStyle.Decimal
