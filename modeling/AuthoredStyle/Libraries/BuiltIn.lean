import AuthoredStyle.Css.Sheet
import AuthoredStyle.Html.Document
import AuthoredStyle.Json.Printing
import AuthoredStyle.Json.Schema
import AuthoredStyle.Json.Reading
import AuthoredStyle.Libraries.Basic
import AuthoredStyle.Url.Reading
import AuthoredStyle.Value.Rgba

/-!
# The libraries that the program runs with

Base64 is read strictly: groups of four, canonical padding, and no bits left over.
-/

namespace AuthoredStyle

namespace Base64

def sextet? (c : Char) : Option Nat :=
  if 'A' ≤ c ∧ c ≤ 'Z' then some (c.toNat - 'A'.toNat)
  else if 'a' ≤ c ∧ c ≤ 'z' then some (c.toNat - 'a'.toNat + 26)
  else if '0' ≤ c ∧ c ≤ '9' then some (c.toNat - '0'.toNat + 52)
  else if c = '+' then some 62
  else if c = '/' then some 63
  else none

/-- A last group: one byte, two bytes or three. -/
def lastGroup? (a b c d : Char) : Option (List UInt8) := do
  let a ← sextet? a
  let b ← sextet? b
  if c = '=' ∧ d = '=' then
    if b % 16 = 0 then some [.ofNat (a * 4 + b / 16)] else none
  else
    let c ← sextet? c
    if d = '=' then
      if c % 4 = 0 then some [.ofNat (a * 4 + b / 16), .ofNat (b % 16 * 16 + c / 4)] else none
    else
      let d ← sextet? d
      some [.ofNat (a * 4 + b / 16), .ofNat (b % 16 * 16 + c / 4), .ofNat (c % 4 * 64 + d)]

def decode? : List Char → Option (List UInt8)
  | [] => some []
  | [a, b, c, d] => lastGroup? a b c d
  | a :: b :: c :: d :: s => do
    if d = '=' then none
    let group ← lastGroup? a b c d
    let rest ← decode? s
    return group ++ rest
  | _ => none

end Base64

instance Libraries.builtIn : Libraries where
  Address := Url
  readAddress := Url.read
  joinAddress := Url.join
  addressText := Url.text
  filePath? := Url.filePath?
  fileAddress := Url.ofFilePath
  jsonValue? text := (Json.read? text).map Json.settled
  jsonRecord? := Json.parse?
  jsonText := Json.compact
  jsonLines := Json.indented ""
  base64? s := (Base64.decode? s).map fun bytes => ⟨bytes.toArray⟩
  document := Html.read
  styleRules := Css.rulesOf
  styleAttribute := Css.declarationsOf
  colour? s := (Value.Rgba.ofText? s).map (·.bytes)

end AuthoredStyle
