import AuthoredStyle.Json.Token
import AuthoredStyle.Json.Value

/-!
# Reading JSON text

The tokens run through a stack machine: each open array or object is a frame
that holds what is complete in it. A text is one value and nothing else.

`parse?` accepts any nesting; `read?` is for text whose every part is looked at,
and refuses strings that are no text, numbers out of range, and nesting deeper
than `depthLimit`.
-/

namespace AuthoredStyle.Json

/-- An open array or object, its complete parts latest first. An object has no
members left once one of its names denotes no text. -/
inductive Frame where
  | array (done : List Json)
  | object (done : Option (List (String × Json))) (name : Option String)

/-- What may come next. -/
inductive Want where
  | value
  /-- Behind an opening bracket. -/
  | itemOrClose
  /-- Behind an opening brace. -/
  | nameOrClose
  | name
  | colon
  /-- Behind a complete part. -/
  | commaOrClose
  deriving DecidableEq

structure Progress where
  frames : List Frame := []
  want : Want := .value
  result : Option Json := none

namespace Progress

/-- A complete value takes its place in the innermost open part. -/
def complete (p : Progress) (j : Json) : Progress :=
  match p.frames with
  | [] => { p with want := .commaOrClose, result := some j }
  | .array done :: outer => { p with frames := .array (j :: done) :: outer, want := .commaOrClose }
  | .object done name :: outer =>
    let done := do return (← name, j) :: (← done)
    { p with frames := .object done none :: outer, want := .commaOrClose }

def wantsValue (p : Progress) : Bool := p.want = .value || p.want = .itemOrClose

def scalar? (p : Progress) (j : Json) : Option Progress :=
  if p.wantsValue then some (p.complete j) else none

def open? (p : Progress) (frame : Frame) (want : Want) : Option Progress :=
  if p.wantsValue then some { p with frames := frame :: p.frames, want := want } else none

def step? (p : Progress) : Token → Option Progress
  | .null => p.scalar? .null
  | .bool b => p.scalar? (.bool b)
  | .int n => p.scalar? (.int n)
  | .real x => p.scalar? (.real x)
  | .text value =>
    match p.frames, p.want with
    | .object done _ :: outer, .nameOrClose | .object done _ :: outer, .name =>
      some { p with frames := .object done value :: outer, want := .colon }
    | _, _ => p.scalar? (match value with | some s => .text s | none => .brokenText)
  | .openArray => p.open? (.array []) .itemOrClose
  | .openObject => p.open? (.object (some []) none) .nameOrClose
  | .closeArray =>
    match p.frames, p.want with
    | .array done :: outer, .itemOrClose | .array done :: outer, .commaOrClose =>
      some ({ p with frames := outer }.complete (.array done.reverse))
    | _, _ => none
  | .closeObject =>
    match p.frames, p.want with
    | .object done _ :: outer, .nameOrClose | .object done _ :: outer, .commaOrClose =>
      let whole := match done with
        | some members => .object members.reverse
        | none => .brokenText
      some ({ p with frames := outer }.complete whole)
    | _, _ => none
  | .comma =>
    match p.frames, p.want with
    | .array _ :: _, .commaOrClose => some { p with want := .value }
    | .object .. :: _, .commaOrClose => some { p with want := .name }
    | _, _ => none
  | .colon => if p.want = .colon then some { p with want := .value } else none

end Progress

def ofTokens? (tokens : List Token) : Option Json := do
  let p ← tokens.foldlM Progress.step? {}
  if p.frames.isEmpty then p.result else none

def parse? (text : String) : Option Json := (tokens? text.toList).bind ofTokens?

def read? (text : String) : Option Json :=
  (parse? text).filter fun j => j.isPlain && j.depth < depthLimit

end AuthoredStyle.Json
