import AuthoredStyle.Html.Reference
import AuthoredStyle.Text.Search

/-!
# Tokens of a document text

A token is a tag, a comment, a doctype or a stretch of text. How text is to be
read depends on the element it stands in: as markup, as text with references, or
as it stands up to the end tag of the element. Attribute and tag names are in
lower case; of attributes with one name the first counts.

Text between tags comes in stretches that a line feed or a reference ends.
-/

namespace AuthoredStyle.Html

structure Tag where
  name : String
  attributes : List (String × String) := []
  selfClosing : Bool := false
  deriving DecidableEq, Repr

structure Doctype where
  name : Option String := none
  publicId : Option String := none
  systemId : Option String := none
  malformed : Bool := false
  deriving DecidableEq, Repr

inductive Token where
  | doctype (d : Doctype)
  | opening (tag : Tag)
  | closing (tag : Tag)
  | comment (content : String)
  | text (content : String)
  /-- A null character in text. -/
  | null
  | finish
  deriving DecidableEq, Repr

/-- How the text at hand is read. The last three end at an end tag. -/
inductive TextKind where
  | markup
  | plain
  | escapable (element : String)
  | raw (element : String)
  | script
  deriving DecidableEq, Repr

def isGap (c : Char) : Bool := c = ' ' || c = '\t' || c = '\n' || c = '\x0C'

def skipGaps (s : List Char) : List Char := s.dropWhile isGap

/-- Null characters give way to the replacement character. -/
def cleaned (s : List Char) : List Char := s.map fun c => if c = '\x00' then replacement else c

def nameOf (s : List Char) : String := String.ofList (Text.lower (cleaned s))

/-! ## Tags -/

def endsTagName (c : Char) : Bool := isGap c || c = '/' || c = '>'

def endsAttributeName (c : Char) : Bool := endsTagName c || c = '='

/-- A value in quotes, or up to a gap or the end of the tag. -/
def attributeValue? : List Char → Option (List Char × List Char)
  | '"' :: s => Text.cut? ['"'] s
  | '\'' :: s => Text.cut? ['\''] s
  | s =>
    let inside (c : Char) : Bool := !(isGap c || c = '>')
    some (s.takeWhile inside, s.dropWhile inside)

/-- An attribute whose name starts with a given character, and what follows. Its
name may start with `=`. Nothing is read when the text ends in a quoted value. -/
def attribute? (c : Char) (s : List Char) : Option ((String × String) × List Char) :=
  let name := nameOf (c :: s.takeWhile (!endsAttributeName ·))
  match skipGaps (s.dropWhile (!endsAttributeName ·)) with
  | '=' :: t => do
    let (value, rest) ← attributeValue? (skipGaps t)
    return ((name, String.ofList (resolve true (cleaned value))), rest)
  | rest => some ((name, ""), rest)

theorem length_dropWhile_le (p : Char → Bool) (s : List Char) :
    (s.dropWhile p).length ≤ s.length := (List.dropWhile_sublist p).length_le

theorem length_of_attributeValue? {s value rest : List Char}
    (h : attributeValue? s = some (value, rest)) : rest.length ≤ s.length := by
  unfold attributeValue? at h
  split at h
  · have := congrArg List.length (Text.eq_of_cut? h)
    simp at this ⊢
    omega
  · have := congrArg List.length (Text.eq_of_cut? h)
    simp at this ⊢
    omega
  · simp only [Option.some.injEq, Prod.mk.injEq] at h
    exact h.2 ▸ length_dropWhile_le _ s

theorem length_of_attribute? {c : Char} {s : List Char} {a : String × String}
    {rest : List Char} (h : attribute? c s = some (a, rest)) : rest.length ≤ s.length := by
  unfold attribute? at h
  have le : (skipGaps (s.dropWhile (!endsAttributeName ·))).length ≤ s.length :=
    Nat.le_trans (length_dropWhile_le _ _) (length_dropWhile_le _ _)
  simp only at h
  split at h
  · rename_i t eq
    obtain ⟨⟨value, r⟩, read, h⟩ := Option.bind_eq_some_iff.mp h
    cases h
    have lt : t.length + 1 ≤ s.length := by simpa [eq] using le
    have := length_of_attributeValue? read
    have := length_dropWhile_le isGap t
    simp only [skipGaps] at *
    omega
  · cases h
    exact le

/-- The rest of a tag behind its name; nothing is read when the text ends first. -/
def tagRest? (tag : Tag) (s : List Char) : Option (Tag × List Char) :=
  match s with
  | [] => none
  | '>' :: rest => some (tag, rest)
  | '/' :: '>' :: rest => some ({ tag with selfClosing := true }, rest)
  | c :: t =>
    if isGap c || c = '/' then tagRest? tag t
    else
      match _found : attribute? c t with
      | none => none
      | some (a, rest) =>
        let known := tag.attributes.any (·.1 = a.1)
        let attributes := if known then tag.attributes else tag.attributes ++ [a]
        tagRest? { tag with attributes := attributes } rest
termination_by s.length
decreasing_by
  · simp
  · exact Nat.lt_succ_of_le (length_of_attribute? ‹_›)

def tag? (s : List Char) : Option (Tag × List Char) :=
  tagRest? { name := nameOf (s.takeWhile (!endsTagName ·)) } (s.dropWhile (!endsTagName ·))

/-! ## Comments and doctypes -/

/-- What is left of an unclosed comment that ends in the middle of its end. -/
def dropOpenEnd (s : List Char) : List Char :=
  ((Text.dropEnding? ['-', '-', '!'] s <|> Text.dropEnding? ['-', '-'] s
    <|> Text.dropEnding? ['-'] s)).getD s

/-- A comment's content up to `-->` or `--!>`, latest first in `read`. -/
def commentFrom (read : List Char) : List Char → List Char × List Char
  | [] => (dropOpenEnd read.reverse, [])
  | '-' :: '-' :: '>' :: rest => (read.reverse, rest)
  | '-' :: '-' :: '!' :: '>' :: rest => (read.reverse, rest)
  | c :: s => commentFrom (c :: read) s

/-- The content behind `<!--`; it is empty when the comment is closed at once. -/
def commentBody : List Char → List Char × List Char
  | '>' :: rest => ([], rest)
  | '-' :: '>' :: rest => ([], rest)
  | s => commentFrom [] s

/-- Up to the next `>`. -/
def upToEnd (s : List Char) : List Char × List Char :=
  (s.takeWhile (· ≠ '>'), (s.dropWhile (· ≠ '>')).drop 1)

/-- An identifier in quotes, whether its closing quote is there, and what follows. -/
def quotedId? (s : List Char) : Option (String × Bool × List Char) :=
  match s with
  | q :: t =>
    if q = '"' ∨ q = '\'' then
      let rest := t.dropWhile (· ≠ q)
      some (String.ofList (t.takeWhile (· ≠ q)), !rest.isEmpty, rest.drop 1)
    else none
  | [] => none

def withSystemId (d : Doctype) (s : List Char) : Doctype :=
  match quotedId? (skipGaps s) with
  | some (id, closed, _) => { d with systemId := some id, malformed := !closed }
  | none => { d with malformed := true }

def withPublicId (d : Doctype) (s : List Char) : Doctype :=
  match quotedId? (skipGaps s) with
  | some (id, closed, rest) =>
    let d := { d with publicId := some id, malformed := !closed }
    if (skipGaps rest).isEmpty then d else withSystemId d rest
  | none => { d with malformed := true }

/-- A doctype from what stands between its keyword and `>`. -/
def Doctype.ofText (text : List Char) : Doctype :=
  let s := skipGaps (cleaned text)
  let name := s.takeWhile (!isGap ·)
  let rest := skipGaps (s.dropWhile (!isGap ·))
  if name.isEmpty then { malformed := true }
  else
    let d : Doctype := { name := some (nameOf name) }
    if rest.isEmpty then d
    else
      match Text.lower (rest.take 6) with
      | ['p', 'u', 'b', 'l', 'i', 'c'] => withPublicId d (rest.drop 6)
      | ['s', 'y', 's', 't', 'e', 'm'] => withSystemId d (rest.drop 6)
      | _ => { d with malformed := true }

/-! ## Text up to an end tag -/

/-- Whether the text goes on with a name in any case and an end of the name. -/
def startsName (name s : List Char) : Bool :=
  Text.lower (s.take name.length) = name && (s.drop name.length).head?.any endsTagName

def startsEndTag (name s : List Char) : Bool :=
  match s with
  | '<' :: '/' :: t => startsName name t
  | _ => false

def upToEndTag (name : List Char) : List Char → List Char × List Char
  | [] => ([], [])
  | c :: s =>
    if startsEndTag name (c :: s) then ([], c :: s)
    else
      let (text, rest) := upToEndTag name s
      (c :: text, rest)

/-- A script may hide its end tag in a comment that has a script of its own. -/
inductive Hiding where
  | no
  | comment
  | script

def scriptName : List Char := ['s', 'c', 'r', 'i', 'p', 't']

/-- What the text at hand does to the hiding of a script. -/
def Hiding.next (h : Hiding) (s : List Char) : Hiding :=
  match h with
  | no => if ['<', '!', '-', '-'].isPrefixOf s then comment else no
  | comment =>
    match s with
    | '-' :: '-' :: '>' :: _ => no
    | '<' :: t => if startsName scriptName t then script else comment
    | _ => comment
  | script =>
    if ['-', '-', '>'].isPrefixOf s then no
    else if startsEndTag scriptName s then comment
    else script

def upToScriptEnd (h : Hiding) : List Char → List Char × List Char
  | [] => ([], [])
  | c :: s =>
    let ends : Bool :=
      match h with
      | .script => false
      | _ => startsEndTag scriptName (c :: s)
    if ends then ([], c :: s)
    else
      let (text, rest) := upToScriptEnd (h.next (c :: s)) s
      (c :: text, rest)

/-! ## One token -/

/-- The tokens of text in which null characters stand for themselves. -/
def textTokens (s : List Char) : List Token :=
  match Text.fields (· = '\x00') s with
  | [] => []
  | f :: fs =>
    let one (f : List Char) : List Token := if f.isEmpty then [] else [.text (String.ofList f)]
    one f ++ fs.flatMap fun f => Token.null :: one f

def endsStretch (c : Char) : Bool := c = '<' || c = '&' || c = '\n' || c = '\x00'

/-- Behind `<!`. A character data section is one only in foreign content. -/
def declaration (foreign : Bool) (s : List Char) : List Token × List Char :=
  match s with
  | '-' :: '-' :: t =>
    let (content, rest) := commentBody t
    ([.comment (String.ofList (cleaned content))], rest)
  | _ =>
    if Text.lower (s.take 7) = "doctype".toList then
      let (content, rest) := upToEnd (s.drop 7)
      let d := Doctype.ofText content
      let closed := s.contains '>'
      ([.doctype { d with malformed := d.malformed || !closed }], rest)
    else if foreign && "[CDATA[".toList.isPrefixOf s then
      let body := s.drop 7
      match Text.cut? [']', ']', '>'] body with
      | some (content, rest) => (textTokens content, rest)
      | none => (textTokens body, [])
    else
      let (content, rest) := upToEnd s
      ([.comment (String.ofList (cleaned content))], rest)

/-- A tag, as an opening or a closing one; one that the text breaks off is dropped. -/
def tagToken (make : Tag → Token) (s : List Char) : List Token × List Char :=
  match tag? s with
  | some (tag, rest) => ([make tag], rest)
  | none => ([], [])

/-- Behind `<`. Where no tag can start it is text, and so is the character behind it. -/
def angle (foreign : Bool) (s : List Char) : List Token × List Char :=
  match s with
  | [] => ([.text "<"], [])
  | '!' :: t => declaration foreign t
  | '?' :: _ =>
    let (content, rest) := upToEnd s
    ([.comment (String.ofList (cleaned content))], rest)
  | '/' :: t =>
    match t with
    | [] => ([.text "<", .text "/"], [])
    | '>' :: rest => ([], rest)
    | c :: _ =>
      if c.isAlpha then tagToken .closing t
      else
        let (content, rest) := upToEnd t
        ([.comment (String.ofList (cleaned content))], rest)
  | c :: t =>
    if c.isAlpha then tagToken .opening s
    else if endsStretch c then ([.text "<"], s)
    else ([.text "<", .text (String.singleton c)], t)

def markup (foreign : Bool) (s : List Char) : List Token × List Char :=
  match s with
  | [] => ([.finish], [])
  | '<' :: t => angle foreign t
  | '\x00' :: t => ([.null], t)
  | '\n' :: t => ([.text "\n"], t)
  | '&' :: t =>
    match reference? false t with
    | some (text, n) => (text.map fun c => .text (String.singleton c), t.drop n)
    | none => ([.text "&"], t)
  | c :: t =>
    ([.text (String.ofList (c :: t.takeWhile (!endsStretch ·)))], t.dropWhile (!endsStretch ·))

/-- Text up to an end tag, or that tag itself if the text is there. -/
def bounded (read : List Char → List Char) (cut : List Char × List Char) : List Token × List Char :=
  match cut with
  | ([], []) => ([.finish], [])
  | ([], s) => tagToken .closing (s.drop 2)
  | (text, rest) => ([.text (String.ofList (read (cleaned text)))], rest)

/-- The next tokens of a text and what is left of it. -/
def next (kind : TextKind) (foreign : Bool) (s : List Char) : List Token × List Char :=
  match kind with
  | .markup => markup foreign s
  | .plain => if s.isEmpty then ([.finish], []) else ([.text (String.ofList (cleaned s))], [])
  | .escapable element => bounded (resolve false) (upToEndTag element.toList s)
  | .raw element => bounded id (upToEndTag element.toList s)
  | .script => bounded id (upToScriptEnd .no s)

/-- Line ends are line feeds, and a byte order mark at the start is none of the text. -/
def normalizedLines : List Char → List Char
  | '\r' :: '\n' :: s => '\n' :: normalizedLines s
  | '\r' :: s => '\n' :: normalizedLines s
  | c :: s => c :: normalizedLines s
  | [] => []

def prepared (text : String) : List Char :=
  match text.toList with
  | '\uFEFF' :: s => normalizedLines s
  | s => normalizedLines s

end AuthoredStyle.Html
