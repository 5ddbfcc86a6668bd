import AuthoredStyle.Text.Letter
import AuthoredStyle.Text.Search

/-!
# Pseudo-classes and pseudo-elements of a selector

A selector is taken apart into its base and its pseudo tokens. A token is one
or two colons and the name behind them, in lower case; a parenthesised argument
is dropped with it. A backslash keeps the next character in the base. Brackets
are not looked at, so a colon in an attribute value starts a token too.
-/

namespace AuthoredStyle.Sheet

def isPseudoNameChar (c : Char) : Bool := Text.isLetterOrNumeral c || c = '-' || c = '_'

/-- What follows the parenthesis that closes `depth` open ones. -/
def afterArgument (depth : Nat) : List Char → List Char
  | [] => []
  | '(' :: s => afterArgument (depth + 1) s
  | ')' :: s => if depth ≤ 1 then s else afterArgument (depth - 1) s
  | _ :: s => afterArgument depth s

def dropArgument : List Char → List Char
  | '(' :: s => afterArgument 1 s
  | s => s

/-- The token behind a first colon, and what follows it with its argument. -/
def pseudoToken (s : List Char) : List Char × List Char :=
  let (colons, s) := match s with
    | ':' :: s => ([':', ':'], s)
    | s => ([':'], s)
  (colons ++ Text.lower (s.takeWhile isPseudoNameChar), dropArgument (s.dropWhile isPseudoNameChar))

theorem length_afterArgument_le (depth : Nat) (s : List Char) :
    (afterArgument depth s).length ≤ s.length := by
  fun_induction afterArgument depth s with
  | case1 => exact Nat.le_refl _
  | case2 depth s ih => exact Nat.le_succ_of_le ih
  | case3 depth s last => exact Nat.le_succ _
  | case4 depth s more ih => exact Nat.le_succ_of_le ih
  | case5 depth c s open' close ih => exact Nat.le_succ_of_le ih

theorem length_dropArgument_le (s : List Char) : (dropArgument s).length ≤ s.length := by
  unfold dropArgument
  split
  · rename_i t
    have := length_afterArgument_le 1 t
    simp
    omega
  · exact Nat.le_refl _

theorem length_pseudoToken_le (s : List Char) : (pseudoToken s).2.length ≤ s.length := by
  have dropped (t : List Char) : (dropArgument (t.dropWhile isPseudoNameChar)).length ≤ t.length :=
    Nat.le_trans (length_dropArgument_le _) (List.dropWhile_sublist _).length_le
  unfold pseudoToken
  split
  rename_i colons t e
  split at e
  · cases e
    have := dropped t
    simp only [List.length_cons]
    omega
  · cases e
    exact dropped _

/-- The base characters and the tokens, both in order. -/
def partPseudo : List Char → List Char × List (List Char)
  | [] => ([], [])
  | ['\\'] => (['\\'], [])
  | '\\' :: c :: s =>
    let (base, tokens) := partPseudo s
    ('\\' :: c :: base, tokens)
  | ':' :: s =>
    let (base, tokens) := partPseudo (pseudoToken s).2
    (base, (pseudoToken s).1 :: tokens)
  | c :: s =>
    let (base, tokens) := partPseudo s
    (c :: base, tokens)
termination_by s => s.length
decreasing_by
  · simp only [List.length_cons]
    omega
  · have := length_pseudoToken_le s
    simp
    omega
  · simp

/-- The base with its blanks collapsed, and the tokens. -/
def splitPseudo (selector : List Char) : List Char × List (List Char) :=
  let (base, tokens) := partPseudo selector
  (Text.collapse base, tokens)

end AuthoredStyle.Sheet
