/-!
# Exact values of binary64 numbers

A finite number is `mantissa * 2 ^ exponent` with a sign, and a ratio of
naturals goes to the nearest such number, a tie to the even mantissa. Both
directions are exact arithmetic on naturals; no operation on `Float` is used.
-/

namespace AuthoredStyle.Decimal

/-- The nearest natural to `num / den`, a tie going to the even one. -/
def roundRatio (num den : Nat) : Nat :=
  let low := num / den
  let twice := 2 * (num % den)
  if twice < den then low
  else if den < twice then low + 1
  else low + low % 2

inductive Binary where
  | notANumber
  | infinite (negative : Bool)
  | finite (negative : Bool) (mantissa : Nat) (exponent : Int)
  deriving DecidableEq, Repr

namespace Binary

def ofFloat (x : Float) : Binary :=
  let bits : Nat := x.toBits.toNat
  let negative := bits / Nat.pow 2 63 == 1
  let biased : Nat := bits / Nat.pow 2 52 % Nat.pow 2 11
  let fraction : Nat := bits % Nat.pow 2 52
  if biased = 2047 then
    if fraction = 0 then .infinite negative else .notANumber
  else if biased = 0 then .finite negative fraction (-1074)
  else .finite negative (Nat.pow 2 52 + fraction) ((biased : Int) - 1075)

end Binary

/-- `num * 2 ^ shift / den`, for a shift of either sign, as a rounded natural. -/
def roundScaled (num den : Nat) (shift : Int) : Nat :=
  if 0 ≤ shift then roundRatio (num * Nat.pow 2 shift.toNat) den
  else roundRatio num (den * Nat.pow 2 (-shift).toNat)

/-- The 53-bit window starts at the exponent of the leading bit, or at the
bottom of the subnormal range. Adding the mantissa to the exponent field lets
a rounding carry step into the next binade on its own. -/
def nearestFloat (negative : Bool) (num den : Nat) : Float :=
  let sign := if negative then Nat.pow 2 63 else 0
  if num = 0 ∨ den = 0 then .ofBits (.ofNat sign)
  else
    let guess : Int := (num.log2 : Int) - den.log2 - 53
    let wide := if 0 ≤ guess then num / (den * Nat.pow 2 guess.toNat)
      else num * Nat.pow 2 (-guess).toNat / den
    let exact := if wide < Nat.pow 2 53 then guess else guess + 1
    let bottom := max exact (-1074)
    let mantissa := roundScaled num den (-bottom)
    let magnitude := (bottom + 1074).toNat * Nat.pow 2 52 + mantissa
    .ofBits (.ofNat (sign + min magnitude (2047 * Nat.pow 2 52)))

/-- What is left of a number after whole multiples of `n`, with the number's sign.
It is exact; infinities leave no number. -/
def remainder (x : Float) (n : Nat) : Float :=
  match Binary.ofFloat x with
  | .notANumber | .infinite _ => .ofBits 0x7FF8000000000000
  | .finite negative mantissa exponent =>
    if 0 ≤ exponent then nearestFloat negative (mantissa * Nat.pow 2 exponent.toNat % n) 1
    else
      let den := Nat.pow 2 (-exponent).toNat
      nearestFloat negative (mantissa % (n * den)) den

end AuthoredStyle.Decimal
