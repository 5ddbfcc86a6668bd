import AuthoredStyle.Decimal.Numeral
import AuthoredStyle.Html.ReferenceTable

/-!
# Character references

A reference stands behind an ampersand: a number, or the longest name in the
table that the text starts with. The semicolon may be missing; in an attribute
a name without it counts only when neither a letter, a digit nor `=` follows.
-/

namespace AuthoredStyle.Html

def hexDigit? (c : Char) : Option Nat :=
  if c.isDigit then some (c.toNat - '0'.toNat)
  else if 'a' ≤ c.toLower ∧ c.toLower ≤ 'f' then some (c.toLower.toNat - 'a'.toNat + 10)
  else none

def hexValue (digits : List Char) : Nat :=
  digits.foldl (fun n c => 16 * n + (hexDigit? c).getD 0) 0

/-- The table with names and texts as lists of characters. -/
def references : List (List Char × List Char) :=
  (referenceTable.flatMap fun line => Text.words line.toList).map fun word =>
    let (name, points) := (word.takeWhile (· ≠ '='), (word.dropWhile (· ≠ '=')).drop 1)
    (name, (Text.fields (· = '+') points).map fun p => Char.ofNat (hexValue p))

/-- What numbers between 0x80 and 0x9F stand for, where that is not the control
character itself. -/
def legacyPoints : List (Nat × Nat) :=
  [(0x80, 0x20AC), (0x82, 0x201A), (0x83, 0x0192), (0x84, 0x201E), (0x85, 0x2026), (0x86, 0x2020),
   (0x87, 0x2021), (0x88, 0x02C6), (0x89, 0x2030), (0x8A, 0x0160), (0x8B, 0x2039), (0x8C, 0x0152),
   (0x8E, 0x017D), (0x91, 0x2018), (0x92, 0x2019), (0x93, 0x201C), (0x94, 0x201D), (0x95, 0x2022),
   (0x96, 0x2013), (0x97, 0x2014), (0x98, 0x02DC), (0x99, 0x2122), (0x9A, 0x0161), (0x9B, 0x203A),
   (0x9C, 0x0153), (0x9E, 0x017E), (0x9F, 0x0178)]

def replacement : Char := '\uFFFD'

/-- The character of a number; what is no character is replaced. -/
def numbered (n : Nat) : Char :=
  if n = 0 ∨ 0x10FFFF < n ∨ (0xD800 ≤ n ∧ n ≤ 0xDFFF) then replacement
  else Char.ofNat ((legacyPoints.lookup n).getD n)

/-- The digits behind `#` or `#x`, with a semicolon if there is one. -/
def numericReference? (lead : Nat) (isDigit : Char → Bool) (value : List Char → Nat)
    (s : List Char) : Option (List Char × Nat) :=
  let digits := s.takeWhile isDigit
  let closed := if (s.drop digits.length).head? = some ';' then 1 else 0
  if digits.isEmpty then none
  else some ([numbered (value digits)], lead + digits.length + closed)

def isLetterOrDigit (c : Char) : Bool := c.isAlpha || c.isDigit

def longerName (a b : List Char × List Char) : List Char × List Char :=
  if a.1.length < b.1.length then b else a

def namedReference? (inAttribute : Bool) (s : List Char) : Option (List Char × Nat) :=
  match references.filter fun e => e.1.isPrefixOf s with
  | [] => none
  | e :: es =>
    let (name, text) := es.foldl longerName e
    let next := (s.drop name.length).head?
    let continues := next.any fun c => c = '=' || isLetterOrDigit c
    if inAttribute && name.getLast? ≠ some ';' && continues then none
    else some (text, name.length)

/-- What a reference stands for and how many characters it takes, in the text
behind an ampersand. -/
def reference? (inAttribute : Bool) (s : List Char) : Option (List Char × Nat) :=
  match s with
  | '#' :: 'x' :: s | '#' :: 'X' :: s =>
    numericReference? 2 (fun c => (hexDigit? c).isSome) hexValue s
  | '#' :: s => numericReference? 1 Char.isDigit Decimal.digitsValue s
  | _ => namedReference? inAttribute s

/-- Text with its references resolved; `taken` characters belong to the last one. -/
def resolveFrom (inAttribute : Bool) (taken : Nat) : List Char → List Char
  | [] => []
  | c :: s =>
    match taken with
    | taken + 1 => resolveFrom inAttribute taken s
    | 0 =>
      if c = '&' then
        match reference? inAttribute s with
        | some (text, n) => text ++ resolveFrom inAttribute n s
        | none => c :: resolveFrom inAttribute 0 s
      else c :: resolveFrom inAttribute 0 s

def resolve (inAttribute : Bool) (s : List Char) : List Char := resolveFrom inAttribute 0 s

end AuthoredStyle.Html
