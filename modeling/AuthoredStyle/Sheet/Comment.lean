/-!
# Comments of a stylesheet

A comment runs from `/*` to the next `*/` that does not share its star, and an
unclosed one runs to the end. Quotes are not looked at: a comment opens inside
a string as well.
-/

namespace AuthoredStyle.Sheet

def uncomment (inside : Bool) : List Char → List Char
  | [] => []
  | [c] => if inside then [] else [c]
  | c :: d :: s =>
    if inside then
      if c = '*' ∧ d = '/' then uncomment false s else uncomment true (d :: s)
    else
      if c = '/' ∧ d = '*' then uncomment true s else c :: uncomment false (d :: s)

def dropComments (text : List Char) : List Char := uncomment false text

end AuthoredStyle.Sheet
