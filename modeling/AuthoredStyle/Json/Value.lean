/-!
# JSON values

Objects keep their members as written, in order and with repeated names, so a
reader decides for itself what a repetition means. Integers written without
fraction and exponent are kept apart from other numbers. A string whose escapes
name half a surrogate pair denotes no text; it is kept as `brokenText`, and so is
an object with such a name, since a reader that skips a member never looks at it.
-/

namespace AuthoredStyle

inductive Json where
  | null
  | bool (value : Bool)
  | int (value : Int)
  | real (value : Float)
  | text (value : String)
  | brokenText
  | array (items : List Json)
  | object (members : List (String × Json))

namespace Json

instance : Inhabited Json := ⟨null⟩

mutual

/-- Every string denotes text and every number is in range. -/
def isPlain : Json → Bool
  | .brokenText => false
  | .real x => x.isFinite
  | .array items => arePlain items
  | .object members => arePlainMembers members
  | _ => true

def arePlain : List Json → Bool
  | [] => true
  | j :: js => j.isPlain && arePlain js

def arePlainMembers : List (String × Json) → Bool
  | [] => true
  | (_, j) :: js => j.isPlain && arePlainMembers js

end

mutual

/-- How many arrays and objects are nested in one another at most. -/
def depth : Json → Nat
  | .array items => depthOfItems items + 1
  | .object members => depthOfMembers members + 1
  | _ => 0

def depthOfItems : List Json → Nat
  | [] => 0
  | j :: js => max j.depth (depthOfItems js)

def depthOfMembers : List (String × Json) → Nat
  | [] => 0
  | (_, j) :: js => max j.depth (depthOfMembers js)

end

/-- Nesting this deep is refused. -/
def depthLimit : Nat := 128

/-- All values that a name has in an object, in order. -/
def valuesOf (name : String) (members : List (String × Json)) : List Json :=
  (members.filter (·.1 = name)).map (·.2)

end Json

end AuthoredStyle
