import AuthoredStyle.Decimal.Numeral

/-!
# Tokens of a style sheet text

A text is a sequence of tokens without anything left over: what fits nowhere is a
delimiter of its own, and a string or address that is broken off is an error token.
Escapes are resolved, and a number has the value nearest to what is written among
the binary32 numbers.
-/

namespace AuthoredStyle.Css

/-- The comparison signs of attribute tests. -/
inductive Comparison where
  | includes
  | dash
  | lead
  | ending
  | substring
  deriving DecidableEq, Repr

inductive Bracket where
  | round
  | square
  | curly
  deriving DecidableEq, Repr

structure Number where
  value : Float32
  isWhole : Bool
  deriving BEq, Repr

inductive Token where
  | ident (name : String)
  | atKeyword (name : String)
  | hash (name : String) (isId : Bool)
  | string (content : String)
  | url (address : String)
  | delim (c : Char)
  | number (n : Number)
  | percentage (n : Number)
  | dimension (n : Number) (unit : String)
  | space
  | comment
  | cdo
  | cdc
  | colon
  | semicolon
  | comma
  | compare (how : Comparison)
  | function (name : String)
  | opening (b : Bracket)
  | closing (b : Bracket)
  /-- A string or an address that is broken off. -/
  | broken
  deriving BEq, Repr

/-! ## Characters -/

def isNewline (c : Char) : Bool := c = '\n' || c = '\r' || c = '\x0C'

def isGap (c : Char) : Bool := c = ' ' || c = '\t' || isNewline c

def hexDigit? (c : Char) : Option Nat :=
  if c.isDigit then some (c.toNat - '0'.toNat)
  else if 'a' ≤ c.toLower ∧ c.toLower ≤ 'f' then some (c.toLower.toNat - 'a'.toNat + 10)
  else none

def startsName (c : Char) : Bool := c.isAlpha || c = '_' || c = '\x00' || 0x80 ≤ c.toNat

def continuesName (c : Char) : Bool := startsName c || c.isDigit || c = '-'

def replacement : Char := '\uFFFD'

/-- One gap belongs to an escape; a carriage return with its line feed is one. -/
def dropGap : List Char → List Char
  | '\r' :: '\n' :: s => s
  | c :: s => if isGap c then s else c :: s
  | [] => []

def codePoint (n : Nat) : Char :=
  if n = 0 ∨ 0x10FFFF < n ∨ (0xD800 ≤ n ∧ n ≤ 0xDFFF) then replacement else Char.ofNat n

/-- What stands behind a backslash: up to six hexadecimal digits, or one character. -/
def escaped (s : List Char) : Char × List Char :=
  match s with
  | [] => (replacement, [])
  | c :: t =>
    let digits := (s.takeWhile fun c => (hexDigit? c).isSome).take 6
    if digits.isEmpty then (if c = '\x00' then replacement else c, t)
    else
      (codePoint (digits.foldl (fun n c => 16 * n + (hexDigit? c).getD 0) 0),
        dropGap (s.drop digits.length))

theorem length_dropGap (s : List Char) : (dropGap s).length ≤ s.length := by
  unfold dropGap
  split
  · simp
    omega
  · split <;> simp
  · simp

theorem length_escaped (s : List Char) : (escaped s).2.length ≤ s.length := by
  unfold escaped
  split
  · simp
  · dsimp only
    split
    · simp
    · exact Nat.le_trans (length_dropGap _) (by simp)

/-! ## Names and strings -/

/-- A backslash starts an escape unless a line ends behind it. -/
def startsEscape : List Char → Bool
  | '\\' :: c :: _ => !isNewline c
  | ['\\'] => true
  | _ => false

/-- The longest name and what follows. -/
def name (s : List Char) : List Char × List Char :=
  match s with
  | [] => ([], [])
  | c :: t =>
    if startsEscape (c :: t) then
      let e := escaped t
      let n := name e.2
      (e.1 :: n.1, n.2)
    else if continuesName c then
      let n := name t
      ((if c = '\x00' then replacement else c) :: n.1, n.2)
    else ([], c :: t)
termination_by s.length
decreasing_by
  · exact Nat.lt_succ_of_le (length_escaped t)
  · simp

def startsIdent : List Char → Bool
  | '-' :: '-' :: _ => true
  | '-' :: c :: s => startsName c || startsEscape (c :: s)
  | c :: s => startsName c || startsEscape (c :: s)
  | [] => false

/-- A string up to its quote; nothing is read when its line ends first. The text
may end in a string. -/
def quoted? (q : Char) (s : List Char) : Option (List Char) × List Char :=
  match s with
  | [] => (some [], [])
  | '\\' :: '\r' :: '\n' :: t => quoted? q t
  | '\\' :: [] => (some [], [])
  | '\\' :: c :: t =>
    if isNewline c then quoted? q t
    else
      let e := escaped (c :: t)
      let r := quoted? q e.2
      (r.1.map (e.1 :: ·), r.2)
  | c :: t =>
    if c = q then (some [], t)
    else if isNewline c then (none, c :: t)
    else
      let r := quoted? q t
      (r.1.map ((if c = '\x00' then replacement else c) :: ·), r.2)
termination_by s.length
decreasing_by
  · simp only [List.length_cons]
    omega
  · simp only [List.length_cons]
    omega
  · exact Nat.lt_of_le_of_lt (length_escaped (c :: t)) (by simp)
  · simp

/-- The rest of a broken address, up to its parenthesis. -/
def afterBrokenUrl (s : List Char) : List Char :=
  match s with
  | [] => []
  | ')' :: t => t
  | '\\' :: _ :: t => afterBrokenUrl t
  | _ :: t => afterBrokenUrl t

/-- An address without quotes, up to its parenthesis. -/
def bareUrl? (s : List Char) : Option (List Char) × List Char :=
  match s with
  | [] => (some [], [])
  | c :: t =>
    if c = ')' then (some [], t)
    else if isGap c then
      match t.dropWhile isGap with
      | [] => (some [], [])
      | ')' :: rest => (some [], rest)
      | rest => (none, afterBrokenUrl rest)
    else if c = '"' || c = '\'' || c = '(' || c.toNat < 0x20 || c = '\x7F' then
      (none, afterBrokenUrl (c :: t))
    else if startsEscape (c :: t) then
      let e := escaped t
      let r := bareUrl? e.2
      (r.1.map (e.1 :: ·), r.2)
    else
      let r := bareUrl? t
      (r.1.map (c :: ·), r.2)
termination_by s.length
decreasing_by
  · exact Nat.lt_succ_of_le (length_escaped t)
  · simp

/-- Whether a parenthesis is followed by an address in quotes. -/
def holdsQuote (s : List Char) : Bool :=
  (s.dropWhile isGap).head?.any fun c => c = '"' || c = '\''

/-- A name with what makes it a function or an address. -/
def named (s : List Char) : Token × List Char :=
  let (n, rest) := name s
  match rest with
  | '(' :: t =>
    if n.map Char.toLower = ['u', 'r', 'l'] && !holdsQuote t then
      match bareUrl? (t.dropWhile isGap) with
      | (some address, rest) => (.url (String.ofList address), rest)
      | (none, rest) => (.broken, rest)
    else (.function (String.ofList n), t)
  | _ => (.ident (String.ofList n), rest)

/-! ## Numbers -/

def unsignedStartsNumber : List Char → Bool
  | '.' :: c :: _ => c.isDigit
  | c :: _ => c.isDigit
  | [] => false

def startsNumber : List Char → Bool
  | '+' :: s | '-' :: s => unsignedStartsNumber s
  | s => unsignedStartsNumber s

/-- The exponent at the start of a text and what follows; none is zero. -/
def exponent (s : List Char) : Bool × Int × List Char :=
  match s with
  | c :: t =>
    let (negative, digits) := Decimal.unsign t
    if (c = 'e' ∨ c = 'E') ∧ (digits.head?.any Char.isDigit) then
      let n : Int := Decimal.digitsValue (digits.takeWhile Char.isDigit)
      (true, if negative then -n else n, digits.dropWhile Char.isDigit)
    else (false, 0, s)
  | [] => (false, 0, s)

/-- A number and what follows: its value before rounding to binary32. -/
def numeral (s : List Char) : Float × Bool × List Char :=
  let (negative, s) := Decimal.unsign s
  let whole := s.takeWhile Char.isDigit
  let rest := s.dropWhile Char.isDigit
  let (fraction, rest) :=
    match rest with
    | '.' :: c :: t =>
      if c.isDigit then ((c :: t).takeWhile Char.isDigit, (c :: t).dropWhile Char.isDigit)
      else ([], rest)
    | _ => ([], rest)
  let (scaled, e, rest) := exponent rest
  let written := Decimal.Numeral.finite negative (Decimal.digitsValue (whole ++ fraction))
    (e - fraction.length)
  (written.toFloat, fraction.isEmpty && !scaled, rest)

def numeric (s : List Char) : Token × List Char :=
  let (x, isWhole, rest) := numeral s
  match rest with
  | '%' :: t => (.percentage ⟨(x / 100).toFloat32, isWhole⟩, t)
  | _ =>
    let n : Number := ⟨x.toFloat32, isWhole⟩
    if startsIdent rest then
      let (unit, rest) := name rest
      (.dimension n (String.ofList unit), rest)
    else (.number n, rest)

/-! ## All tokens -/

/-- Behind `/*`, up to the end of the comment. -/
def afterComment : List Char → List Char
  | [] => []
  | '*' :: '/' :: s => s
  | _ :: s => afterComment s

def stringToken (q : Char) (s : List Char) : Token × List Char :=
  match quoted? q s with
  | (some content, rest) => (.string (String.ofList content), rest)
  | (none, rest) => (.broken, rest)

def comparison? : Char → Option Comparison
  | '~' => some .includes
  | '|' => some .dash
  | '^' => some .lead
  | '$' => some .ending
  | '*' => some .substring
  | _ => none

def bracket? : Char → Option Token
  | '(' => some (.opening .round)
  | ')' => some (.closing .round)
  | '[' => some (.opening .square)
  | ']' => some (.closing .square)
  | '{' => some (.opening .curly)
  | '}' => some (.closing .curly)
  | ':' => some .colon
  | ';' => some .semicolon
  | ',' => some .comma
  | _ => none

/-- A character that no longer token starts with, with the equals sign behind it if
the two are a comparison. -/
def simpleToken (c : Char) (s : List Char) : Token × List Char :=
  match bracket? c, comparison? c, s with
  | some t, _, _ => (t, s)
  | none, some how, '=' :: rest => (.compare how, rest)
  | none, _, _ => (.delim c, s)

/-- The token that a text starts with, and what follows. -/
def token (c : Char) (t : List Char) : Token × List Char :=
  let s := c :: t
  if isGap c then (.space, t.dropWhile isGap)
  else if c = '"' || c = '\'' then stringToken c t
  else if c = '#' && t.head?.any (fun d => continuesName d || startsEscape t) then
    let (n, rest) := name t
    (.hash (String.ofList n) (startsIdent t), rest)
  else if startsNumber s then numeric s
  else
    match s with
    | '-' :: '-' :: '>' :: rest => (.cdc, rest)
    | '<' :: '!' :: '-' :: '-' :: rest => (.cdo, rest)
    | '/' :: '*' :: rest => (.comment, afterComment rest)
    | _ =>
      if startsIdent s then named s
      else if c = '@' && startsIdent t then
        let (n, rest) := name t
        (.atKeyword (String.ofList n), rest)
      else simpleToken c t

/-- All tokens of a text. Each takes at least one character. -/
def tokens (s : List Char) : List Token :=
  match s with
  | [] => []
  | c :: t =>
    let r := token c t
    if _shorter : r.2.length ≤ t.length then r.1 :: tokens r.2 else [r.1]
termination_by s.length
decreasing_by exact Nat.lt_succ_of_le _shorter

end AuthoredStyle.Css
