import AuthoredStyle.StyleTree.Node
import AuthoredStyle.Value.Normal

/-!
# Style trees as nested SCSS

A tree is written as lines: each node opens a block, its own declarations come
first, then the blocks of its boxes, breakpoints and hovering, then its children.
A blank line stands in front of every inner block that neither opens its parent
nor follows a blank line, and behind every child.
-/

namespace AuthoredStyle.Scss

structure Options where
  /-- Write breakpoint blocks. -/
  media : Bool := true
  /-- Write a hover block. -/
  hover : Bool := true
  /-- Write font sizes as mixin calls where the size is known in pixels. -/
  fontSize : Bool := true
  deriving DecidableEq, Repr

inductive Line where
  | blank
  | opening (level : Nat) (head : String)
  | statement (level : Nat) (text : String)
  | closing (level : Nat)
  deriving DecidableEq, Repr

namespace Line

def indent (level : Nat) : String := String.ofList (List.replicate (2 * level) ' ')

def text : Line → String
  | blank => ""
  | opening level head => indent level ++ head ++ " \x7b"
  | statement level text => indent level ++ text ++ ";"
  | closing level => indent level ++ "\x7d"

/-- A block may follow directly. -/
def isGap : Line → Bool
  | blank | opening .. => true
  | statement .. | closing .. => false

end Line

/-- The pixels of a font size: of a `px` length, or of a `rem` length at ten
pixels a rem. -/
def fontSizeArgument? (value : String) : Option String :=
  let said := Text.trim value.toList
  match Value.px? said with
  | some px => some (Value.ratioText px)
  | none => do
    let number ← Text.dropEnding? ['r', 'e', 'm'] said
    let rem ← Decimal.readFloat? (Text.trim number)
    return Value.ratioText (rem * 10)

def declaration (o : Options) (property value : String) : String :=
  match if o.fontSize && property = "font-size" then fontSizeArgument? value else none with
  | some size => "@include font-size(" ++ size ++ ")"
  | none => property ++ ": " ++ value

def declarations (o : Options) (level : Nat) (s : Styles) : List Line :=
  s.entries.map fun e => .statement level (declaration o e.1 e.2)

/-- A block behind what is already written, with a blank line between if needed. -/
def behind (written block : List Line) : List Line :=
  if written.getLast?.all Line.isGap then written ++ block else written ++ .blank :: block

/-- A block of declarations only; nothing when there are none. -/
def block (o : Options) (level : Nat) (head : String) (s : Styles) : List (List Line) :=
  if s.isEmpty then []
  else [.opening level head :: declarations o (level + 1) s ++ [.closing level]]

/-- The blocks of a node that are not children. -/
def sideBlocks (o : Options) (level : Nat) (pseudo media : GroupedStyles) (hover : Styles) :
    List (List Line) :=
  pseudo.entries.flatMap (fun e => block o level ("&" ++ e.1) e.2) ++
    (if o.media then media.entries.flatMap fun e => block o level ("@include " ++ e.1) e.2
      else []) ++
    (if o.hover then block o level "@include hover()" hover else [])

mutual

def lines (o : Options) (level : Nat) : StyleNode → List Line
  | ⟨selector, _, _, _, _, styles, pseudo, media, hover, children, _⟩ =>
    (sideBlocks o (level + 1) pseudo media hover ++ childBlocks o (level + 1) children).foldl behind
      (.opening level selector :: declarations o (level + 1) styles) ++ [.closing level]

/-- Each child with the blank line behind it. -/
def childBlocks (o : Options) (level : Nat) : List StyleNode → List (List Line)
  | [] => []
  | n :: ns => (lines o level n ++ [.blank]) :: childBlocks o level ns

end

def serialize (o : Options) (tree : StyleNode) : String :=
  String.join ((lines o 0 tree).map fun l => l.text ++ "\n")

end AuthoredStyle.Scss
