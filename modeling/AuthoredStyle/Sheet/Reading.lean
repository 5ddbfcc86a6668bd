import AuthoredStyle.Property.Breakpoint
import AuthoredStyle.Sheet.Comment
import AuthoredStyle.Sheet.Declaration
import AuthoredStyle.Sheet.Piece
import AuthoredStyle.Sheet.Pseudo
import AuthoredStyle.Sheet.RuleSet

/-!
# Reading a stylesheet into rules

Nested blocks are resolved against their parents' selectors, and every rule
goes to the bucket its pseudo tokens ask for. Malformed text is passed over, not
reported. A rule is kept only when its selector names a class or an id.

Media blocks at the top level become breakpoint rules; they, keyframes and font
faces are then cut out of the text and what is left is read as a rule list.
Other at-rules are looked through, and a media block inside one is dropped.
-/

namespace AuthoredStyle.Sheet

/-- At-rules that say nothing about elements. -/
def droppedAtRules : List String := ["@keyframes", "@-webkit-keyframes", "@font-face"]

def isAtRule (prelude : List Char) : Bool := prelude.head? = some '@'

def leadsWith (word : String) (prelude : List Char) : Bool :=
  Text.hasLead word.toList (Text.lower prelude)

def isDroppedAtRule (prelude : List Char) : Bool := droppedAtRules.any (leadsWith · prelude)

/-- The text between commas outside parentheses and brackets; one depth counts
both kinds of bracket. -/
def commaFields (depth : Nat) : List Char → List (List Char)
  | [] => [[]]
  | c :: s =>
    if c = ',' ∧ depth = 0 then [] :: commaFields 0 s
    else
      let inner :=
        if c = '(' ∨ c = '[' then depth + 1
        else if c = ')' ∨ c = ']' then depth - 1
        else depth
      match commaFields inner s with
      | [] => [[c]]
      | f :: fs => (c :: f) :: fs

def selectorList (prelude : List Char) : List (List Char) :=
  ((commaFields 0 prelude).map Text.collapse).filter (!·.isEmpty)

/-- A child selector under its parent: at each ampersand, or behind it. -/
def nestUnder (parent child : List Char) : List Char :=
  if child.contains '&' then Text.substitute '&' parent child else parent ++ ' ' :: child

/-- All pairs, the parents in the outer order. -/
def nest (parents children : List (List Char)) : List (List Char) :=
  if parents.isEmpty then children
  else parents.flatMap fun parent => children.map (nestUnder parent)

/-- Selectors that describe a reset or a bare element, not something authored. -/
def isGeneric (base : List Char) : Bool :=
  let said := Text.trim base
  said.isEmpty || said = ['*'] || said.head? = some '@' || said.head? = some '[' ||
    (!said.contains '.' && !said.contains '#')

def elementOf? (token : List Char) : Option PseudoElement :=
  PseudoElement.ofToken? (String.ofList token)

/-- A pseudo-element other than the two boxes that rules are kept for. -/
def isOtherElement (token : List Char) : Bool :=
  Text.hasLead [':', ':'] token && (elementOf? token).isNone

/-- The rule that one selector and its block's declarations make. -/
def ruleOf (selector : List Char) (ds : Declarations) (file : String) : RuleSet :=
  let (base, tokens) := splitPseudo selector
  let name := String.ofList base
  if isGeneric base || tokens.any isOtherElement then ∅
  else
    match tokens.findSome? elementOf? with
    | some element => { pseudo := [⟨name, element, .ofList ds⟩] }
    | none =>
      if tokens.contains ":hover".toList then { hover := [⟨name, .ofList ds⟩] }
      else { plain := [⟨name, .ofList (ds.map (·.1)), file⟩] }

/-- The rules of a block's own declarations, one for each selector. -/
def ownRules (selectors : List (List Char)) (body : List Piece) (file : String) : RuleSet :=
  let ds := declarations (statements body)
  if ds.isEmpty then ∅ else .join (selectors.map (ruleOf · ds file))

mutual

/-- The rules of a style block, its own in front of its nested blocks'. At-rules
inside it are dropped. -/
def Piece.styleRules (file : String) (parents : List (List Char)) : Piece → RuleSet
  | .block lead body =>
    let prelude := Text.trim lead
    if isAtRule prelude then ∅
    else
      let selectors := nest parents (selectorList prelude)
      ownRules selectors body file ++ nestedRules file selectors body
  | .statement .. | .stray .. | .unclosed .. => ∅

def nestedRules (file : String) (parents : List (List Char)) : List Piece → RuleSet
  | [] => ∅
  | p :: ps => p.styleRules file parents ++ nestedRules file parents ps

end

/-- At-rules inside a rule list that are not looked through. -/
def isOpaqueAtRule (prelude : List Char) : Bool :=
  leadsWith "@media" prelude || leadsWith "@include" prelude || isDroppedAtRule prelude

mutual

def Piece.listedRules (file : String) : Piece → RuleSet
  | .block lead body =>
    let prelude := Text.trim lead
    if !isAtRule prelude then Piece.styleRules file [] (.block lead body)
    else if isOpaqueAtRule prelude then ∅
    else listedRules file body
  | .statement .. | .stray .. | .unclosed .. => ∅

/-- The style rules of a rule list, through its grouping at-rules. -/
def listedRules (file : String) : List Piece → RuleSet
  | [] => ∅
  | p :: ps => p.listedRules file ++ listedRules file ps

end

/-- The rules of one style block inside a breakpoint's media block. -/
def Piece.breakpointRules (breakpoint : String) : Piece → List MediaRule
  | .block lead body =>
    let prelude := Text.trim lead
    let ds := declarations (statements body)
    if isAtRule prelude || ds.isEmpty then []
    else (selectorList prelude).filterMap fun selector =>
      let (base, tokens) := splitPseudo selector
      if !tokens.isEmpty || isGeneric base then none
      else some ⟨String.ofList base, breakpoint, .ofList ds⟩
  | .statement .. | .stray .. | .unclosed .. => []

/-- The breakpoint rules of a top-level media block with a known condition. -/
def Piece.mediaRules : Piece → List MediaRule
  | .block lead body =>
    let prelude := Text.lower (Text.trim lead)
    if isDroppedAtRule prelude then []
    else
      match (Text.dropLead? "@media".toList prelude).bind Property.breakpoint? with
      | some breakpoint => body.flatMap (Piece.breakpointRules breakpoint)
      | none => []
  | .statement .. | .stray .. | .unclosed .. => []

/-- Media blocks, keyframes and font faces, known or not. -/
def Piece.isCutOut : Piece → Bool
  | .block lead _ => isDroppedAtRule (Text.trim lead) || leadsWith "@media" (Text.trim lead)
  | .statement .. | .stray .. | .unclosed .. => false

/-- The text without its top-level media blocks, keyframes and font faces. -/
def withoutCutOuts (text : List Char) : List Char :=
  sources ((pieces text).filter (!·.isCutOut))

/-- The rules of stylesheet text read from a file. -/
def read (text : String) (file : String) : RuleSet :=
  let plainText := dropComments text.toList
  { media := (pieces plainText).flatMap Piece.mediaRules } ++
    listedRules file (pieces (withoutCutOuts plainText))

end AuthoredStyle.Sheet
