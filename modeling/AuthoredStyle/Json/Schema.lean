import AuthoredStyle.Dict
import AuthoredStyle.Json.Value

/-!
# Reading records out of JSON

A record is an object with known members, or an array of its fields in their
order. Unknown members are ignored; a known member that is repeated, or an array
that is too long, is refused. Every reader answers `none` for a value of another
shape.
-/

namespace AuthoredStyle.Json

/-- The fields of a record, `none` for a missing one. -/
def fields? (names : List String) : Json → Option (List (Option Json))
  | .object members => names.mapM fun name =>
    match valuesOf name members with
    | [] => some none
    | [j] => some (some j)
    | _ => none
  | .array items =>
    if items.length ≤ names.length then
      some (items.map some ++ List.replicate (names.length - items.length) none)
    else none
  | _ => none

def text? : Json → Option String
  | .text s => some s
  | _ => none

def bool? : Json → Option Bool
  | .bool b => some b
  | _ => none

/-- A whole number of 64 bits. -/
def nat? : Json → Option Nat
  | .int n => if 0 ≤ n ∧ n < Nat.pow 2 64 then some n.toNat else none
  | _ => none

def items? : Json → Option (List Json)
  | .array items => some items
  | _ => none

def list? {α : Type} (read : Json → Option α) (j : Json) : Option (List α) := do
  (← j.items?).mapM read

/-- A dictionary; of a repeated name the last value counts. -/
def dict? {α : Type} (read : Json → Option α) : Json → Option (Dict α)
  | .object members => do
    let entries ← members.mapM fun (name, j) => (read j).map (name, ·)
    return .ofList entries
  | _ => none

/-- A value that may be null. -/
def nullable? {α : Type} (read : Json → Option α) : Json → Option (Option α)
  | .null => some none
  | j => (read j).map some

/-- A field that may be missing. -/
def optional? {α : Type} (default : α) (read : Json → Option α) : Option Json → Option α
  | none => some default
  | some j => read j

/-- Members with the last value of each repeated name, at its first place. -/
def lastOfEach (members : List (String × Json)) : List (String × Json) :=
  members.foldl (fun ms m =>
    if ms.any (·.1 = m.1) then ms.map fun e => if e.1 = m.1 then m else e else ms ++ [m]) []

mutual

/-- Repeated names resolved throughout in favour of the last. -/
def settled : Json → Json
  | .array items => .array (settledItems items)
  | .object members => .object (lastOfEach (settledMembers members))
  | j => j

def settledItems : List Json → List Json
  | [] => []
  | j :: js => j.settled :: settledItems js

def settledMembers : List (String × Json) → List (String × Json)
  | [] => []
  | (name, j) :: ms => (name, j.settled) :: settledMembers ms

end

end AuthoredStyle.Json
