import AuthoredStyle.Decimal.Numeral

/-!
# Opaque colours in hexadecimal

Every closed `rgb(…)` or `rgba(…)` in a value, its name in any case, gives way
to `#rrggbb` when it is opaque and its channels read as numbers. A call ends at
its first closing parenthesis. Whatever cannot be read, and every translucent
colour, stays exactly as it stands.
-/

namespace AuthoredStyle.Value

def isChannelGap (c : Char) : Bool := c = ',' || c = '/' || Text.isBlank c

/-- A number, or a percentage as its hundredth. -/
def alpha? (s : List Char) : Option Float :=
  match Text.dropEnding? ['%'] s with
  | some percent => (Decimal.readFloat? percent).map (· / 100)
  | none => Decimal.readFloat? s

/-- Rounded half away from zero, then held within one byte; no number is zero. -/
def channel? (s : List Char) : Option UInt8 :=
  (Decimal.readFloat? s).map fun x => x.round.toUInt8

def hexDigits (b : UInt8) : List Char :=
  [(b.toNat / 16).digitChar, (b.toNat % 16).digitChar]

def hexOf (channels : List (List Char)) : Option (List Char) := do
  let bytes ← channels.mapM channel?
  return '#' :: bytes.flatMap hexDigits

/-- The hexadecimal form of a call's arguments, when they are an opaque colour. -/
def opaqueHex? (arguments : List Char) : Option (List Char) :=
  match Text.runs isChannelGap arguments with
  | [r, g, b] => hexOf [r, g, b]
  | [r, g, b, a] => do
    let alpha ← alpha? a
    if alpha < 1 then none else hexOf [r, g, b]
  | _ => none

/-- The head of a colour call, up to and with its parenthesis, and the rest. -/
def callHead? : List Char → Option (List Char × List Char)
  | r :: g :: b :: '(' :: s =>
    if Text.lower [r, g, b] = ['r', 'g', 'b'] then some ([r, g, b, '('], s) else none
  | r :: g :: b :: a :: '(' :: s =>
    if Text.lower [r, g, b, a] = ['r', 'g', 'b', 'a'] then some ([r, g, b, a, '('], s) else none
  | _ => none

/-- A closed colour call at the start of the text: head, arguments and rest. -/
def call? (s : List Char) : Option (List Char × List Char × List Char) := do
  let (head, tail) ← callHead? s
  let (arguments, rest) ← Text.cut? [')'] tail
  return (head, arguments, rest)

theorem eq_of_callHead? {s head tail : List Char} (h : callHead? s = some (head, tail)) :
    s = head ++ tail := by
  unfold callHead? at h
  split at h
  · split at h
    · cases h
      rfl
    · cases h
  · split at h
    · cases h
      rfl
    · cases h
  · cases h

theorem eq_of_call? {s head arguments rest : List Char}
    (h : call? s = some (head, arguments, rest)) : s = head ++ arguments ++ ')' :: rest := by
  unfold call? at h
  obtain ⟨⟨hd, tail⟩, headed, h⟩ := Option.bind_eq_some_iff.mp h
  obtain ⟨⟨args, r⟩, closed, h⟩ := Option.bind_eq_some_iff.mp h
  cases h
  rw [eq_of_callHead? headed, Text.eq_of_cut? closed]
  simp

/-- The text with every opaque colour call in hexadecimal. -/
def hexColours (s : List Char) : List Char :=
  match s with
  | [] => []
  | c :: s' =>
    match _found : call? (c :: s') with
    | some (head, arguments, rest) =>
      (opaqueHex? arguments).getD (head ++ arguments ++ [')']) ++ hexColours rest
    | none => c :: hexColours s'
termination_by s.length
decreasing_by
  · rw [eq_of_call? _found]
    simp
    omega
  · simp

end AuthoredStyle.Value
