import AuthoredStyle.Text.Letter
import AuthoredStyle.Url.Basic

/-!
# Hosts of addresses

A host is a name, an IPv4 address in any of its spellings, or a bracketed IPv6
address; each is brought into one written form. Names are written small and
their labels beyond ASCII in Punycode.
-/

namespace AuthoredStyle.Url

/-! ## IPv4 -/

def octalDigit? (c : Char) : Option Nat :=
  if '0' ≤ c ∧ c ≤ '7' then some (c.toNat - '0'.toNat) else none

/-- A number in decimal, octal or hexadecimal. -/
def ipv4Number? (s : List Char) : Option Nat :=
  match s with
  | [] => none
  | '0' :: x :: digits =>
    if x = 'x' ∨ x = 'X' then Json.hexNumber? digits
    else (x :: digits).foldlM (fun n c => (octalDigit? c).map (8 * n + ·)) 0
  | s => Decimal.whole? s

def dotted (s : List Char) : List (List Char) :=
  let parts := Text.fields (· = '.') s
  if 1 < parts.length && parts.getLast? = some [] then parts.dropLast else parts

def endsInNumber (s : List Char) : Bool :=
  match (dotted s).getLast? with
  | some last => (!last.isEmpty && last.all Char.isDigit) || (ipv4Number? last).isSome
  | none => false

def ipv4Text (n : Nat) : List Char :=
  ['.'].intercalate
    ([n / 16777216, n / 65536 % 256, n / 256 % 256, n % 256].map (Nat.toDigits 10 ·))

/-- All parts but the last are bytes; the last fills what is left. -/
def ipv4? (s : List Char) : Except Error (List Char) :=
  match (dotted s).mapM ipv4Number? with
  | none => .error .invalidIpv4
  | some numbers =>
    match numbers.reverse with
    | [] => .error .invalidIpv4
    | last :: front =>
      if 3 < front.length || front.any (255 < ·) || Nat.pow 256 (4 - front.length) ≤ last then
        .error .invalidIpv4
      else
        let high := front.reverse.zipIdx.foldl (fun n (b, i) => n + b * Nat.pow 256 (3 - i)) 0
        .ok (ipv4Text (high + last))

/-! ## IPv6 -/

def strictByte? (s : List Char) : Option Nat := do
  let n ← Decimal.whole? s
  if n < 256 ∧ (s.head? ≠ some '0' ∨ s.length = 1) then some n else none

/-- The two last pieces of an address that ends in dotted bytes. -/
def dottedPieces? (s : List Char) : Option (List Nat) := do
  match ← (Text.fields (· = '.') s).mapM strictByte? with
  | [a, b, c, d] => some [a * 256 + b, c * 256 + d]
  | _ => none

def ipv6Piece? (s : List Char) : Option Nat :=
  if s.isEmpty || 4 < s.length then none else Json.hexNumber? s

/-- The pieces between colons, dotted bytes allowed at the end only. -/
def ipv6Pieces? (bytesAllowed : Bool) (s : List Char) : Option (List Nat) :=
  if s.isEmpty then some []
  else
    let parts := Text.fields (· = ':') s
    match parts.getLast? with
    | some last =>
      if last.contains '.' then
        if bytesAllowed then do
          let front ← parts.dropLast.mapM ipv6Piece?
          return front ++ (← dottedPieces? last)
        else none
      else parts.mapM ipv6Piece?
    | none => none

/-- Eight pieces; a double colon stands for at least one zero piece. -/
def ipv6Address? (s : List Char) : Option (List Nat) :=
  match Text.cut? [':', ':'] s with
  | some (before, after) => do
    let front ← ipv6Pieces? false before
    let back ← ipv6Pieces? true after
    let known := front.length + back.length
    if known < 8 then some (front ++ List.replicate (8 - known) 0 ++ back) else none
  | none => (ipv6Pieces? true s).filter (·.length = 8)

/-- The length of the run of zeros at the start. -/
def zerosAt (pieces : List Nat) : Nat := (pieces.takeWhile (· = 0)).length

/-- Where the first longest run of at least two zeros starts, and its length. -/
def longestZeros (pieces : List Nat) : Option (Nat × Nat) :=
  (List.range 8).foldl (fun best i =>
    let n := zerosAt (pieces.drop i)
    match best with
    | some (_, m) => if m < n then some (i, n) else best
    | none => if 2 ≤ n then some (i, n) else none) none

def ipv6Text (pieces : List Nat) : List Char :=
  let write (ps : List Nat) := [':'].intercalate (ps.map (Nat.toDigits 16 ·))
  let body := match longestZeros pieces with
    | some (i, n) => write (pieces.take i) ++ [':', ':'] ++ write (pieces.drop (i + n))
    | none => write pieces
  '[' :: body ++ [']']

def ipv6? (s : List Char) : Except Error (List Char) :=
  match ipv6Address? s with
  | some pieces => .ok (ipv6Text pieces)
  | none => .error .invalidIpv6

/-! ## Names -/

def punycodeDigit (d : Nat) : Char :=
  if d < 26 then Char.ofNat ('a'.toNat + d) else Char.ofNat ('0'.toNat + d - 26)

/-- The delta brought down by division, with the digits saved. -/
def scaleDelta : (steps : Nat) → (delta saved : Nat) → Nat × Nat
  | 0, delta, saved => (delta, saved)
  | steps + 1, delta, saved =>
    if 455 < delta then scaleDelta steps (delta / 35) (saved + 36) else (delta, saved)

def adaptBias (delta count : Nat) (first : Bool) : Nat :=
  let halved := if first then delta / 700 else delta / 2
  let (delta, saved) := scaleDelta 16 (halved + halved / count) 0
  saved + 36 * delta / (delta + 38)

def punycodeNumber (bias : Nat) : (steps : Nat) → (k q : Nat) → List Char
  | 0, _, _ => []
  | steps + 1, k, q =>
    let t := if k ≤ bias then 1 else min 26 (k - bias)
    if q < t then [punycodeDigit q]
    else punycodeDigit (t + (q - t) % (36 - t)) ::
      punycodeNumber bias steps (k + 36) ((q - t) / (36 - t))

structure Punycode where
  out : List Char
  delta : Nat
  bias : Nat
  handled : Nat
  basic : Nat

/-- Every occurrence of one code point, after all smaller ones. -/
def Punycode.encode (label : List Char) (p : Punycode) (before n : Nat) : Punycode :=
  let p := { p with delta := p.delta + (n - before) * (p.handled + 1) }
  let p := label.foldl (fun p c =>
    if c.toNat < n then { p with delta := p.delta + 1 }
    else if c.toNat = n then
      { p with
        out := p.out ++ punycodeNumber p.bias 12 36 p.delta
        bias := adaptBias p.delta (p.handled + 1) (p.handled = p.basic)
        delta := 0
        handled := p.handled + 1 }
    else p) p
  { p with delta := p.delta + 1 }

def punycode (label : List Char) : List Char :=
  let basic := label.filter (·.toNat < 128)
  let points := ((label.filter (128 ≤ ·.toNat)).map (·.toNat)).mergeSort.eraseDups
  let start : Punycode :=
    ⟨if basic.isEmpty then [] else basic ++ ['-'], 0, 72, basic.length, basic.length⟩
  (points.foldl (fun (p, before) n => (p.encode label before n, n + 1)) (start, 128)).1.out

def isForbiddenInName (c : Char) : Bool :=
  c ≤ ' ' || c = '\x7f' || "%#/:<>?@[\\]^|".toList.contains c

/-- Letters beyond ASCII that are written small in a name: the first and the last of a
range, how far apart they are, and what the first one becomes. -/
def capitalRanges : List (Nat × Nat × Nat × Nat) :=
  [(0xB5, 0xB5, 1, 0x3BC), (0xC0, 0xD6, 1, 0xE0), (0xD8, 0xDE, 1, 0xF8), (0x100, 0x12E, 2, 0x101),
   (0x134, 0x136, 2, 0x135), (0x139, 0x13D, 2, 0x13A), (0x141, 0x147, 2, 0x142),
   (0x14A, 0x176, 2, 0x14B), (0x178, 0x178, 1, 0xFF), (0x179, 0x17D, 2, 0x17A),
   (0x17F, 0x17F, 1, 0x73), (0x181, 0x181, 1, 0x253), (0x182, 0x184, 2, 0x183),
   (0x186, 0x186, 1, 0x254), (0x187, 0x187, 1, 0x188), (0x189, 0x18A, 1, 0x256),
   (0x18B, 0x18B, 1, 0x18C), (0x18E, 0x18E, 1, 0x1DD), (0x18F, 0x18F, 1, 0x259),
   (0x190, 0x190, 1, 0x25B), (0x191, 0x191, 1, 0x192), (0x193, 0x193, 1, 0x260),
   (0x194, 0x194, 1, 0x263), (0x196, 0x196, 1, 0x269), (0x197, 0x197, 1, 0x268),
   (0x198, 0x198, 1, 0x199), (0x19C, 0x19C, 1, 0x26F), (0x19D, 0x19D, 1, 0x272),
   (0x19F, 0x19F, 1, 0x275), (0x1A0, 0x1A4, 2, 0x1A1), (0x1A6, 0x1A6, 1, 0x280),
   (0x1A7, 0x1A7, 1, 0x1A8), (0x1A9, 0x1A9, 1, 0x283), (0x1AC, 0x1AC, 1, 0x1AD),
   (0x1AE, 0x1AE, 1, 0x288), (0x1AF, 0x1AF, 1, 0x1B0), (0x1B1, 0x1B2, 1, 0x28A),
   (0x1B3, 0x1B5, 2, 0x1B4), (0x1B7, 0x1B7, 1, 0x292), (0x1B8, 0x1B8, 1, 0x1B9),
   (0x1BC, 0x1BC, 1, 0x1BD), (0x1CD, 0x1DB, 2, 0x1CE), (0x1DE, 0x1EE, 2, 0x1DF),
   (0x1F4, 0x1F4, 1, 0x1F5), (0x1F6, 0x1F6, 1, 0x195), (0x1F7, 0x1F7, 1, 0x1BF),
   (0x1F8, 0x21E, 2, 0x1F9), (0x220, 0x220, 1, 0x19E), (0x222, 0x232, 2, 0x223),
   (0x23A, 0x23A, 1, 0x2C65), (0x23B, 0x23B, 1, 0x23C), (0x23D, 0x23D, 1, 0x19A),
   (0x23E, 0x23E, 1, 0x2C66), (0x241, 0x241, 1, 0x242), (0x243, 0x243, 1, 0x180),
   (0x244, 0x244, 1, 0x289), (0x245, 0x245, 1, 0x28C), (0x246, 0x24E, 2, 0x247),
   (0x345, 0x345, 1, 0x3B9), (0x370, 0x372, 2, 0x371), (0x376, 0x376, 1, 0x377),
   (0x37F, 0x37F, 1, 0x3F3), (0x386, 0x386, 1, 0x3AC), (0x388, 0x38A, 1, 0x3AD),
   (0x38C, 0x38C, 1, 0x3CC), (0x38E, 0x38F, 1, 0x3CD), (0x391, 0x3A1, 1, 0x3B1),
   (0x3A3, 0x3AB, 1, 0x3C3), (0x3CF, 0x3CF, 1, 0x3D7), (0x3D0, 0x3D0, 1, 0x3B2),
   (0x3D1, 0x3D1, 1, 0x3B8), (0x3D5, 0x3D5, 1, 0x3C6), (0x3D6, 0x3D6, 1, 0x3C0),
   (0x3D8, 0x3EE, 2, 0x3D9), (0x3F0, 0x3F0, 1, 0x3BA), (0x3F1, 0x3F1, 1, 0x3C1),
   (0x3F4, 0x3F4, 1, 0x3B8), (0x3F5, 0x3F5, 1, 0x3B5), (0x3F7, 0x3F7, 1, 0x3F8),
   (0x3FA, 0x3FA, 1, 0x3FB), (0x3FD, 0x3FF, 1, 0x37B), (0x400, 0x40F, 1, 0x450),
   (0x410, 0x42F, 1, 0x430), (0x460, 0x480, 2, 0x461), (0x48A, 0x4BE, 2, 0x48B),
   (0x4C0, 0x4C0, 1, 0x4CF), (0x4C1, 0x4CD, 2, 0x4C2), (0x4D0, 0x52E, 2, 0x4D1),
   (0x531, 0x556, 1, 0x561), (0x10A0, 0x10C5, 1, 0x2D00), (0x10C7, 0x10C7, 1, 0x2D27),
   (0x10CD, 0x10CD, 1, 0x2D2D), (0x13F8, 0x13FD, 1, 0x13F0), (0x1C80, 0x1C80, 1, 0x432),
   (0x1C81, 0x1C81, 1, 0x434), (0x1C82, 0x1C82, 1, 0x43E), (0x1C83, 0x1C84, 1, 0x441),
   (0x1C85, 0x1C85, 1, 0x442), (0x1C86, 0x1C86, 1, 0x44A), (0x1C87, 0x1C87, 1, 0x463),
   (0x1C88, 0x1C88, 1, 0xA64B), (0x1C90, 0x1CBA, 1, 0x10D0), (0x1CBD, 0x1CBF, 1, 0x10FD),
   (0x1E00, 0x1E94, 2, 0x1E01), (0x1E9B, 0x1E9B, 1, 0x1E61), (0x1EA0, 0x1EFE, 2, 0x1EA1),
   (0x1F08, 0x1F0F, 1, 0x1F00), (0x1F18, 0x1F1D, 1, 0x1F10), (0x1F28, 0x1F2F, 1, 0x1F20),
   (0x1F38, 0x1F3F, 1, 0x1F30), (0x1F48, 0x1F4D, 1, 0x1F40), (0x1F59, 0x1F5F, 2, 0x1F51),
   (0x1F68, 0x1F6F, 1, 0x1F60), (0x1FB8, 0x1FB9, 1, 0x1FB0), (0x1FBA, 0x1FBA, 1, 0x1F70),
   (0x1FBE, 0x1FBE, 1, 0x3B9), (0x1FC8, 0x1FCA, 2, 0x1F72), (0x1FD8, 0x1FD9, 1, 0x1FD0),
   (0x1FDA, 0x1FDA, 1, 0x1F76), (0x1FE8, 0x1FE9, 1, 0x1FE0), (0x1FEA, 0x1FEA, 1, 0x1F7A),
   (0x1FEC, 0x1FEC, 1, 0x1FE5), (0x1FF8, 0x1FF8, 1, 0x1F78), (0x1FFA, 0x1FFA, 1, 0x1F7C),
   (0x2126, 0x2126, 1, 0x3C9), (0x212A, 0x212A, 1, 0x6B), (0x212B, 0x212B, 1, 0xE5),
   (0x2132, 0x2132, 1, 0x214E), (0x2183, 0x2183, 1, 0x2184), (0x2C00, 0x2C2F, 1, 0x2C30),
   (0x2C60, 0x2C60, 1, 0x2C61), (0x2C62, 0x2C62, 1, 0x26B), (0x2C63, 0x2C63, 1, 0x1D7D),
   (0x2C64, 0x2C64, 1, 0x27D), (0x2C67, 0x2C6B, 2, 0x2C68), (0x2C6D, 0x2C6D, 1, 0x251),
   (0x2C6E, 0x2C6E, 1, 0x271), (0x2C6F, 0x2C6F, 1, 0x250), (0x2C70, 0x2C70, 1, 0x252),
   (0x2C72, 0x2C72, 1, 0x2C73), (0x2C75, 0x2C75, 1, 0x2C76), (0x2C7E, 0x2C7F, 1, 0x23F),
   (0x2C80, 0x2CE2, 2, 0x2C81), (0x2CEB, 0x2CED, 2, 0x2CEC), (0x2CF2, 0x2CF2, 1, 0x2CF3),
   (0xA640, 0xA66C, 2, 0xA641), (0xA680, 0xA69A, 2, 0xA681), (0xA722, 0xA72E, 2, 0xA723),
   (0xA732, 0xA76E, 2, 0xA733), (0xA779, 0xA77B, 2, 0xA77A), (0xA77D, 0xA77D, 1, 0x1D79),
   (0xA77E, 0xA786, 2, 0xA77F), (0xA78B, 0xA78B, 1, 0xA78C), (0xA78D, 0xA78D, 1, 0x265),
   (0xA790, 0xA792, 2, 0xA791), (0xA796, 0xA7A8, 2, 0xA797), (0xA7AA, 0xA7AA, 1, 0x266),
   (0xA7AB, 0xA7AB, 1, 0x25C), (0xA7AC, 0xA7AC, 1, 0x261), (0xA7AD, 0xA7AD, 1, 0x26C),
   (0xA7AE, 0xA7AE, 1, 0x26A), (0xA7B0, 0xA7B0, 1, 0x29E), (0xA7B1, 0xA7B1, 1, 0x287),
   (0xA7B2, 0xA7B2, 1, 0x29D), (0xA7B3, 0xA7B3, 1, 0xAB53), (0xA7B4, 0xA7C2, 2, 0xA7B5),
   (0xA7C4, 0xA7C4, 1, 0xA794), (0xA7C5, 0xA7C5, 1, 0x282), (0xA7C6, 0xA7C6, 1, 0x1D8E),
   (0xA7C7, 0xA7C9, 2, 0xA7C8), (0xA7D0, 0xA7D0, 1, 0xA7D1), (0xA7D6, 0xA7D8, 2, 0xA7D7),
   (0xA7F5, 0xA7F5, 1, 0xA7F6), (0xAB70, 0xABBF, 1, 0x13A0), (0x10400, 0x10427, 1, 0x10428),
   (0x104B0, 0x104D3, 1, 0x104D8), (0x10570, 0x1057A, 1, 0x10597), (0x1057C, 0x1058A, 1, 0x105A3),
   (0x1058C, 0x10592, 1, 0x105B3), (0x10594, 0x10595, 1, 0x105BB), (0x10C80, 0x10CB2, 1, 0x10CC0),
   (0x118A0, 0x118BF, 1, 0x118C0), (0x16E40, 0x16E5F, 1, 0x16E60), (0x1E900, 0x1E921, 1, 0x1E922)]

def smallLetter (c : Char) : Char :=
  if c.toNat < 128 then c.toLower
  else
    let among := capitalRanges.find? fun (first, last, step, _) =>
      first ≤ c.toNat && c.toNat ≤ last && (c.toNat - first) % step = 0
    match among with
    | some (first, _, _, small) => .ofNat (small + (c.toNat - first))
    | none => c

/-- Written small, labels beyond ASCII in Punycode. -/
def nameLabel (label : List Char) : List Char :=
  let small := label.map smallLetter
  if small.all (·.toNat < 128) then small else "xn--".toList ++ punycode small

def name? (s : List Char) : Except Error (List Char) :=
  if s.any isForbiddenInName then .error .invalidDomainName
  else
    let name := ['.'].intercalate ((Text.fields (· = '.') s).map nameLabel)
    if name.isEmpty then .error .emptyHost
    else if endsInNumber name then ipv4? name
    else .ok name

def bracketed? (s : List Char) : Except Error (List Char) :=
  match Text.dropEnding? [']'] s with
  | some inner => ipv6? inner
  | none => .error .invalidIpv6

/-- The host of a special address. -/
def host? : List Char → Except Error (List Char)
  | '[' :: s => bracketed? s
  | s =>
    match utf8? (unescape s) with
    | some name => name? name.toList
    | none => .error .invalidDomainName

def isForbiddenInHost (c : Char) : Bool := "\x00\t\n\r #/:<>?@[\\]^|".toList.contains c

/-- The host of any other address keeps its spelling. -/
def plainHost? : List Char → Except Error (List Char)
  | '[' :: s => bracketed? s
  | s =>
    if s.any isForbiddenInHost then .error .invalidHostCharacter else .ok (escape inControls s)

end AuthoredStyle.Url
