/-!
# Blank characters, trimming and words

Text is handled as a list of characters. Blank means the Unicode property
White_Space, not the six ASCII characters alone: a no-break space ends a word,
a zero-width space does not.
-/

namespace AuthoredStyle.Text

def isBlank (c : Char) : Bool :=
  let n := c.toNat
  (9 ≤ n && n ≤ 13) || n == 0x20 || n == 0x85 || n == 0xA0 || n == 0x1680 ||
    (0x2000 ≤ n && n ≤ 0x200A) || n == 0x2028 || n == 0x2029 || n == 0x202F ||
    n == 0x205F || n == 0x3000

def trimStart (s : List Char) : List Char := s.dropWhile isBlank

/-- A trailing character stays when it or anything after it is not blank. -/
def trimEnd : List Char → List Char
  | [] => []
  | c :: s =>
    match trimEnd s with
    | [] => if isBlank c then [] else [c]
    | t => c :: t

def trim (s : List Char) : List Char := trimStart (trimEnd s)

/-- The fields between separators, empty ones included; there is always one. -/
def fields (separates : Char → Bool) : List Char → List (List Char)
  | [] => [[]]
  | c :: s =>
    if separates c then [] :: fields separates s
    else
      match fields separates s with
      | [] => [[c]]
      | f :: fs => (c :: f) :: fs

/-- The maximal runs that hold no separator. -/
def runs (separates : Char → Bool) (s : List Char) : List (List Char) :=
  (fields separates s).filter (!·.isEmpty)

def words (s : List Char) : List (List Char) := runs isBlank s

/-- Every stretch of blanks becomes one space, and none is left at an end. -/
def collapse (s : List Char) : List Char := [' '].intercalate (words s)

theorem fields_ne_nil (p : Char → Bool) (s : List Char) : fields p s ≠ [] := by
  cases s with
  | nil => simp [fields]
  | cons c s =>
    rw [fields]
    split
    · simp
    · split <;> simp

end AuthoredStyle.Text
