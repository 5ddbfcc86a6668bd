import AuthoredStyle.Css.Token

/-!
# Components: tokens with their brackets matched

A function or a bracket holds everything up to its closing bracket, or up to the end
of the text. A closing bracket that closes nothing stays as a token.
-/

namespace AuthoredStyle.Css

inductive Component where
  | token (t : Token)
  | function (name : String) (arguments : List Component)
  | block (b : Bracket) (content : List Component)

instance : Inhabited Component := ⟨.token .space⟩

/-- What a level of components was opened by. -/
inductive Opener where
  | function (name : String)
  | bracket (b : Bracket)

def Opener.bracketOf : Opener → Bracket
  | function _ => .round
  | bracket b => b

def Opener.close (o : Opener) (content : List Component) : Component :=
  match o with
  | function name => .function name content
  | bracket b => .block b content

/-- The components of the level at hand and of the levels around it, each the latest
first. -/
structure Nesting where
  level : List Component := []
  outer : List (Opener × List Component) := []

namespace Nesting

def closeLevel (n : Nesting) : Nesting :=
  match n.outer with
  | [] => n
  | (o, before) :: outer => ⟨o.close n.level.reverse :: before, outer⟩

def add (n : Nesting) (t : Token) : Nesting :=
  match t with
  | .function name => ⟨[], (.function name, n.level) :: n.outer⟩
  | .opening b => ⟨[], (.bracket b, n.level) :: n.outer⟩
  | .closing b =>
    if (n.outer.head?.map fun o => o.1.bracketOf) = some b then n.closeLevel
    else { n with level := .token t :: n.level }
  | t => { n with level := .token t :: n.level }

def closeAll (n : Nesting) : List Component :=
  (n.outer.foldl (fun n _ => n.closeLevel) n).level.reverse

end Nesting

def componentsOf (text : String) : List Component :=
  ((tokens text.toList).foldl Nesting.add {}).closeAll

namespace Component

def isToken (t : Token) : Component → Bool
  | token t' => t' == t
  | _ => false

def isDelim (c : Char) (x : Component) : Bool := x.isToken (.delim c)

/-- White space and comments. -/
def isGap : Component → Bool
  | token .space | token .comment => true
  | _ => false

def isCurly : Component → Bool
  | block .curly _ => true
  | _ => false

def ident? : Component → Option String
  | token (.ident name) => some name
  | _ => none

/-- A name in lower case. -/
def keyword? (x : Component) : Option String :=
  x.ident?.map fun name => String.ofList (Text.lower name.toList)

end Component

def trimGaps (xs : List Component) : List Component :=
  ((xs.dropWhile (·.isGap)).reverse.dropWhile (·.isGap)).reverse

def withoutGaps (xs : List Component) : List Component := xs.filter (!·.isGap)

/-- The parts between components that separate. -/
def splitAt (separates : Component → Bool) : List Component → List (List Component)
  | [] => [[]]
  | x :: xs =>
    if separates x then [] :: splitAt separates xs
    else
      match splitAt separates xs with
      | [] => [[x]]
      | part :: parts => (x :: part) :: parts

def splitCommas (xs : List Component) : List (List Component) :=
  splitAt (·.isToken .comma) xs

end AuthoredStyle.Css
