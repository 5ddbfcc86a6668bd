import AuthoredStyle.Json.Token

/-!
# Percent encoding

A character is written as itself or as its UTF-8 bytes in `%XX` form. Which
characters are escaped depends on the part of the address; the sets grow from
one part to the next.
-/

namespace AuthoredStyle.Url

def hexUpper (n : Nat) : Char := (Nat.digitChar (n % 16)).toUpper

def escapeByte (b : UInt8) : List Char := ['%', hexUpper (b.toNat / 16), hexUpper b.toNat]

def escape (special : Char → Bool) (s : List Char) : List Char :=
  s.flatMap fun c => if special c then (String.utf8EncodeChar c).flatMap escapeByte else [c]

/-- Controls and everything beyond ASCII. -/
def inControls (c : Char) : Bool := c < ' ' || '~' < c

def inFragment (c : Char) : Bool := inControls c || [' ', '"', '<', '>', '`'].contains c

def inQuery (c : Char) : Bool := inControls c || [' ', '"', '#', '<', '>'].contains c

def inSpecialQuery (c : Char) : Bool := inQuery c || c = '\''

def inPath (c : Char) : Bool := inFragment c || ['#', '?', '\x7b', '\x7d'].contains c

/-- What cannot stand as it is in a name that is one segment of a path. -/
def inPathSegment (c : Char) : Bool := inPath c || ['/', '%', '\\'].contains c

def inUserinfo (c : Char) : Bool :=
  inPath c || ['/', ':', ';', '=', '@', '[', '\\', ']', '^', '|'].contains c

/-- The bytes that a text with escapes denotes. A percent sign without two
hexadecimal digits stands for itself. -/
def unescape : List Char → List UInt8
  | [] => []
  | '%' :: a :: b :: s =>
    match Json.hexNumber? [a, b] with
    | some n => .ofNat n :: unescape s
    | none => 0x25 :: unescape (a :: b :: s)
  | c :: s => String.utf8EncodeChar c ++ unescape s

/-- The text that bytes denote in UTF-8. -/
def utf8? (bytes : List UInt8) : Option String := String.fromUTF8? ⟨bytes.toArray⟩

end AuthoredStyle.Url
