import AuthoredStyle.Css.Verbatim

/-!
# Readers of values

A reader takes a value from the start of some components, without white space among
them, and answers with the form in which the value is written and with what follows.
Values that mean the same are written alike.
-/

namespace AuthoredStyle.Css

abbrev Reader := List Component → Option (String × List Component)

namespace Reader

def or (r s : Reader) : Reader := fun xs => r xs <|> s xs

def firstOf (rs : List Reader) : Reader := fun xs => rs.findSome? fun r => r xs

/-- One of some keywords, in any case. -/
def keyword (names : List String) : Reader
  | [] => none
  | x :: rest => (x.keyword?.filter names.contains).map fun k => (k, rest)

/-- A component of its own. -/
def one (read? : Component → Option String) : Reader
  | [] => none
  | x :: rest => (read? x).map fun s => (s, rest)

/-- The text of a value that takes all components. -/
def whole? (r : Reader) (xs : List Component) : Option String :=
  match r xs with
  | some (s, []) => some s
  | _ => none

/-- As many values as there are, at most `limit`. -/
def manyUpTo (r : Reader) : (limit : Nat) → List Component → List String × List Component
  | 0, xs => ([], xs)
  | limit + 1, xs =>
    match r xs with
    | none => ([], xs)
    | some (s, rest) =>
      let (ss, rest) := manyUpTo r limit rest
      (s :: ss, rest)

def spaced (ss : List String) : String := " ".intercalate ss

/-- Values between commas, each of them whole. -/
def list (r : Reader) : Reader := fun xs =>
  ((splitCommas xs).mapM (whole? r)).map fun ss => (", ".intercalate ss, [])

/-- Values for the four sides; equal ones opposite each other are written once. -/
def sidesText : List String → String
  | [t, r, b, l] =>
    if l ≠ r then spaced [t, r, b, l]
    else if t ≠ b then spaced [t, r, b]
    else if t ≠ r then spaced [t, r]
    else t
  | ss => spaced ss

def fourSides : List String → List String
  | [a] => [a, a, a, a]
  | [a, b] => [a, b, a, b]
  | [a, b, c] => [a, b, c, b]
  | ss => ss

def sides (r : Reader) : Reader := fun xs =>
  match manyUpTo r 4 xs with
  | ([], _) => none
  | (ss, rest) => some (sidesText (fourSides ss), rest)

/-- One value or two; two equal ones are written once. -/
def pair (r : Reader) : Reader := fun xs =>
  match manyUpTo r 2 xs with
  | ([a], rest) => some (a, rest)
  | ([a, b], rest) => some (if a = b then a else spaced [a, b], rest)
  | _ => none

end Reader

open Reader

/-! ## Numbers and measures -/

def number : Reader := one fun
  | .token (.number n) => some (numberText n.value)
  | _ => none

def wholeNumber : Reader := one fun
  | .token (.number n) => if n.isWhole then some (numberText n.value) else none
  | _ => none

/-- A number, or a percentage as a number. -/
def alphaValue : Reader := one fun
  | .token (.number n) | .token (.percentage n) => some (numberText n.value)
  | _ => none

def percentage : Reader := one fun
  | .token (.percentage n) => some (percentText n.value)
  | _ => none

/-- A length; nought needs no unit. -/
def lengthText? : Component → Option String
  | .token (.number n) => if n.value == 0 then some "0" else none
  | .token (.dimension n unit) =>
    if !lengthUnits.contains (lowered unit) then none
    else if n.value == 0 then some "0"
    else some (dimensionText n.value (lowered unit))
  | _ => none

def angle : Reader := one fun
  | .token (.dimension n unit) => angleText? n.value unit
  | .token (.number n) => if n.value == 0 then some "0deg" else none
  | _ => none

def time : Reader := one fun
  | .token (.dimension n unit) => timeText? n.value unit
  | _ => none

/-! ## Calculations

A calculation is a sum of terms, one for each unit; a number has no unit. -/

structure Term where
  value : Float32
  unit : String

namespace Term

def isNumber : List Term → Option Float32
  | [⟨x, ""⟩] => some x
  | _ => none

def scale (k : Float32) (ts : List Term) : List Term := ts.map fun t => ⟨t.value * k, t.unit⟩

def addOne (ts : List Term) (t : Term) : List Term :=
  match ts with
  | [] => [t]
  | u :: us => if u.unit = t.unit then ⟨u.value + t.value, u.unit⟩ :: us else u :: addOne us t

/-- A negative term alone stands behind a positive one that is added. -/
def add (ts us : List Term) : List Term :=
  let all := us.foldl addOne ts
  match ts, all with
  | [_], [a, b] => if a.value < 0 && 0 ≤ b.value then [b, a] else all
  | _, _ => all

def product? (a b : List Term) : Option (List Term) :=
  match isNumber a, isNumber b with
  | _, some k => some (scale k a)
  | some k, none => some (scale k b)
  | none, none => none

def quotient? (a b : List Term) : Option (List Term) :=
  match isNumber b with
  | some k => if k == 0 then none else some (scale (1 / k) a)
  | none => none

def text (t : Term) : String :=
  match t.unit with
  | "" => numberText t.value
  | "%" => percentText t.value
  | unit => dimensionText t.value unit

def signedText (t : Term) : String :=
  if t.value < 0 then " - " ++ text ⟨-t.value, t.unit⟩ else " + " ++ text t

end Term

/-- An operator that waits for its right side. -/
inductive Pending where
  | times
  | divide

mutual

/-- The sum that a list of components goes on with: what is added up so far, the sign
of the product at hand, the product and what is to be done with the next factor. -/
def calculate? (sum : List Term) (sign : Float32) (product : Option (List Term))
    (pending : Option Pending) : List Component → Option (List Term)
  | [] =>
    match product, pending with
    | some p, none => some (Term.add sum (Term.scale sign p))
    | _, _ => none
  | x :: xs =>
    match product, pending with
    | some p, none =>
      match x with
      | .token (.delim '*') => calculate? sum sign (some p) (some .times) xs
      | .token (.delim '/') => calculate? sum sign (some p) (some .divide) xs
      | .token (.delim '+') => calculate? (Term.add sum (Term.scale sign p)) 1 none none xs
      | .token (.delim '-') => calculate? (Term.add sum (Term.scale sign p)) (-1) none none xs
      | _ => if x.isGap then calculate? sum sign product pending xs else none
    | _, _ =>
      if x.isGap then calculate? sum sign product pending xs
      else
        match operand? x, product, pending with
        | none, _, _ => none
        | some q, some p, some .times =>
          (Term.product? p q).bind fun p => calculate? sum sign (some p) none xs
        | some q, some p, some .divide =>
          (Term.quotient? p q).bind fun p => calculate? sum sign (some p) none xs
        | some q, _, _ => calculate? sum sign (some q) none xs

def operand? : Component → Option (List Term)
  | .token (.number n) => some [⟨n.value, ""⟩]
  | .token (.percentage n) => some [⟨n.value, "%"⟩]
  | .token (.dimension n unit) =>
    if lengthUnits.contains (lowered unit) then some [⟨n.value, lowered unit⟩] else none
  | .block .round xs => calculate? [] 1 none none xs
  | .function name xs => if lowered name = "calc" then calculate? [] 1 none none xs else none
  | _ => none

end

/-- A calculation that comes to lengths and, if they are allowed, percentages. A sum
of one term is that term. -/
def calculation? (percents : Bool) (x : Component) : Option String :=
  match x with
  | .function .. =>
    match operand? x with
    | none => none
    | some ts =>
      let fits (t : Term) : Bool := t.unit ≠ "" && (percents || t.unit ≠ "%")
      if !ts.all fits then none
      else
        match ts.filter (fun t => t.value != 0), ts with
        | [], t :: _ => some (if t.unit = "%" then t.text else "0")
        | [t], _ => some t.text
        | t :: us, _ => some ("calc(" ++ t.text ++ String.join (us.map (·.signedText)) ++ ")")
        | [], [] => none
  | _ => none

mutual

def holdsVariable : List Component → Bool
  | [] => false
  | x :: xs => isVariable x || holdsVariable xs

/-- A value that is known only elsewhere, or one that has such a value in it. -/
def isVariable : Component → Bool
  | .function name xs => ["var", "env"].contains (lowered name) || holdsVariable xs
  | .block _ xs => holdsVariable xs
  | .token _ => false

end

/-- The smallest, the largest or a bounded value, which is kept. -/
def bounded? (x : Component) : Option String :=
  match x with
  | .function name xs =>
    if ["min", "max", "clamp"].contains (lowered name) && !holdsVariable xs then verbatim? [x]
    else none
  | _ => none

def length : Reader :=
  one fun x => lengthText? x <|> calculation? false x <|> bounded? x

def lengthPercentage : Reader :=
  firstOf [length, percentage, one (calculation? true)]

def lengthPercentageOrAuto : Reader := (keyword ["auto"]).or lengthPercentage

def colour : Reader := one colour?

end AuthoredStyle.Css
