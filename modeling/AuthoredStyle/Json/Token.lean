import AuthoredStyle.Decimal.Numeral

/-!
# Tokens of JSON text

A string token holds its text, or nothing when an escape names half a surrogate
pair. A number token is an integer only when it has neither fraction nor
exponent, is no negative zero, and fits 64 bits in its sign; any other number is
the nearest binary64 value.
-/

namespace AuthoredStyle.Json

inductive Token where
  | openArray
  | closeArray
  | openObject
  | closeObject
  | comma
  | colon
  | null
  | bool (value : Bool)
  | int (value : Int)
  | real (value : Float)
  | text (value : Option String)

def isGap (c : Char) : Bool := c = ' ' || c = '\n' || c = '\t' || c = '\r'

def hexValue? (c : Char) : Option Nat :=
  if '0' ≤ c ∧ c ≤ '9' then some (c.toNat - '0'.toNat)
  else if 'a' ≤ c ∧ c ≤ 'f' then some (c.toNat - 'a'.toNat + 10)
  else if 'A' ≤ c ∧ c ≤ 'F' then some (c.toNat - 'A'.toNat + 10)
  else none

/-- The value of hexadecimal digits, all of which must be digits. -/
def hexNumber? (s : List Char) : Option Nat :=
  s.foldlM (fun n c => (hexValue? c).map (16 * n + ·)) 0

/-- A character of a string as written: itself, or a 16-bit unit by number. -/
inductive Unit where
  | char (c : Char)
  | code (n : Nat)

def shortEscape? : Char → Option Char
  | '"' => some '"'
  | '\\' => some '\\'
  | '/' => some '/'
  | 'b' => some '\x08'
  | 'f' => some '\x0c'
  | 'n' => some '\n'
  | 'r' => some '\r'
  | 't' => some '\t'
  | _ => none

/-- The units of a string up to its closing quote, and what follows it. -/
def stringUnits : List Char → Option (List Unit × List Char)
  | [] => none
  | '"' :: s => some ([], s)
  | '\\' :: 'u' :: a :: b :: c :: d :: s => do
    let n ← hexNumber? [a, b, c, d]
    let (units, rest) ← stringUnits s
    return (.code n :: units, rest)
  | '\\' :: e :: s => do
    let c ← shortEscape? e
    let (units, rest) ← stringUnits s
    return (.char c :: units, rest)
  | c :: s =>
    if c < ' ' then none
    else do
      let (units, rest) ← stringUnits s
      return (.char c :: units, rest)

/-- The text of a string, its surrogate pairs joined. -/
def unitsText? : List Unit → Option (List Char)
  | [] => some []
  | .char c :: us => (unitsText? us).map (c :: ·)
  | .code n :: us =>
    if 0xD800 ≤ n ∧ n < 0xDC00 then
      match us with
      | .code m :: us =>
        if 0xDC00 ≤ m ∧ m < 0xE000 then
          (unitsText? us).map (Char.ofNat (0x10000 + (n - 0xD800) * 0x400 + (m - 0xDC00)) :: ·)
        else none
      | _ => none
    else if 0xDC00 ≤ n ∧ n < 0xE000 then none
    else (unitsText? us).map (Char.ofNat n :: ·)

def isNumberChar (c : Char) : Bool :=
  c.isDigit || c = '-' || c = '+' || c = '.' || c = 'e' || c = 'E'

/-- No zero in front of another digit. -/
def isWholePart (s : List Char) : Bool :=
  !s.isEmpty && s.all Char.isDigit && (s.head? ≠ some '0' || s.length = 1)

def isFraction : List Char → Bool
  | '.' :: s => !s.isEmpty && s.all Char.isDigit
  | s => s.isEmpty

def isExponent : List Char → Bool
  | [] => true
  | _ :: s =>
    let digits := (Decimal.unsign s).2
    !digits.isEmpty && digits.all Char.isDigit

def numberToken? (s : List Char) : Option Token :=
  let (negative, body) := match s with
    | '-' :: body => (true, body)
    | body => (false, body)
  let whole := body.takeWhile Char.isDigit
  let tail := body.dropWhile Char.isDigit
  let fraction := tail.takeWhile fun c => c ≠ 'e' && c ≠ 'E'
  let exponent := tail.dropWhile fun c => c ≠ 'e' && c ≠ 'E'
  if !(isWholePart whole && isFraction fraction && isExponent exponent) then none
  else
    let n := Decimal.digitsValue whole
    if tail.isEmpty && (if negative then 0 < n && n ≤ Nat.pow 2 63 else n < Nat.pow 2 64) then
      some (.int (if negative then -(n : Int) else n))
    else (Decimal.readFloat? s).map .real

/-- The first token of text that starts with none of the gap characters. -/
def token? : List Char → Option (Token × List Char)
  | '[' :: s => some (.openArray, s)
  | ']' :: s => some (.closeArray, s)
  | '{' :: s => some (.openObject, s)
  | '}' :: s => some (.closeObject, s)
  | ',' :: s => some (.comma, s)
  | ':' :: s => some (.colon, s)
  | 'n' :: 'u' :: 'l' :: 'l' :: s => some (.null, s)
  | 't' :: 'r' :: 'u' :: 'e' :: s => some (.bool true, s)
  | 'f' :: 'a' :: 'l' :: 's' :: 'e' :: s => some (.bool false, s)
  | '"' :: s => (stringUnits s).map fun (units, rest) =>
    (.text ((unitsText? units).map String.ofList), rest)
  | s => (numberToken? (s.takeWhile isNumberChar)).map (·, s.dropWhile isNumberChar)

/-- All tokens. Each token takes at least one character, so as many steps as
there are characters reach the end. -/
def tokensIn : Nat → List Char → Option (List Token)
  | 0, s => if (s.dropWhile isGap).isEmpty then some [] else none
  | steps + 1, s =>
    let s := s.dropWhile isGap
    if s.isEmpty then some []
    else do
      let (token, rest) ← token? s
      let tokens ← tokensIn steps rest
      return token :: tokens

def tokens? (s : List Char) : Option (List Token) := tokensIn s.length s

end AuthoredStyle.Json
