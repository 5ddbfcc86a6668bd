import AuthoredStyle.Decimal.Written
import AuthoredStyle.Json.Value

/-!
# Writing JSON text

Two forms: compact, without blanks, and indented by two spaces with one part a
line. Characters beyond ASCII stand as they are; quotes, backslashes and control
characters are escaped, the common controls by letter.
-/

namespace AuthoredStyle.Json

def hexDigit (n : Nat) : Char := (n % 16).digitChar

def escapeChar (c : Char) : List Char :=
  match c with
  | '"' => ['\\', '"']
  | '\\' => ['\\', '\\']
  | '\x08' => ['\\', 'b']
  | '\x0c' => ['\\', 'f']
  | '\n' => ['\\', 'n']
  | '\r' => ['\\', 'r']
  | '\t' => ['\\', 't']
  | c =>
    if c < ' ' then ['\\', 'u', '0', '0', hexDigit (c.toNat / 16), hexDigit c.toNat] else [c]

def quote (s : String) : String := String.ofList ('"' :: s.toList.flatMap escapeChar ++ ['"'])

/-- A number that is not an integer keeps a point, so that it reads back as one. -/
def realText (x : Float) : String :=
  let s := Decimal.shortest x
  if s.toList.contains '.' then s else s ++ ".0"

def scalarText : Json → String
  | .null => "null"
  | .bool b => if b then "true" else "false"
  | .int n => if n < 0 then "-" ++ Nat.repr n.natAbs else Nat.repr n.natAbs
  | .real x => realText x
  | .text s => quote s
  | .brokenText => "null"
  | .array _ => "[]"
  | .object _ => "\x7b\x7d"

mutual

def compact : Json → String
  | .array items => "[" ++ ",".intercalate (compactItems items) ++ "]"
  | .object members => "\x7b" ++ ",".intercalate (compactMembers members) ++ "\x7d"
  | j => scalarText j

def compactItems : List Json → List String
  | [] => []
  | j :: js => j.compact :: compactItems js

def compactMembers : List (String × Json) → List String
  | [] => []
  | (name, j) :: js => (quote name ++ ":" ++ j.compact) :: compactMembers js

end

/-- Parts on lines of their own between two brackets, an empty list on none. -/
def lines (opening closing indent : String) (parts : List String) : String :=
  if parts.isEmpty then opening ++ closing
  else
    let body := ",\n".intercalate (parts.map (indent ++ "  " ++ ·))
    opening ++ "\n" ++ body ++ "\n" ++ indent ++ closing

mutual

def indented (indent : String) : Json → String
  | .array items => lines "[" "]" indent (indentedItems (indent ++ "  ") items)
  | .object members => lines "\x7b" "\x7d" indent (indentedMembers (indent ++ "  ") members)
  | j => scalarText j

def indentedItems (indent : String) : List Json → List String
  | [] => []
  | j :: js => j.indented indent :: indentedItems indent js

def indentedMembers (indent : String) : List (String × Json) → List String
  | [] => []
  | (name, j) :: js => (quote name ++ ": " ++ j.indented indent) :: indentedMembers indent js

end

end AuthoredStyle.Json
