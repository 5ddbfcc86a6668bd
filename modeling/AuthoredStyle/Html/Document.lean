import AuthoredStyle.Html.Doctype
import AuthoredStyle.Html.Rules.Foreign
import AuthoredStyle.Html.Rules.Outside
import AuthoredStyle.Html.Rules.Table

/-!
# Documents from text

Every text is a document: what is missing is opened, what has no place is moved or
dropped. Items are read one after the other, since what a tag means for the text
behind it depends on where it stands.
-/

namespace AuthoredStyle.Html

namespace Builder

def rulesOf : Mode → Builder → Item → Outcome
  | .initial => Rules.initial
  | .beforeHtml => Rules.beforeHtml
  | .beforeHead => Rules.beforeHead
  | .inHead => Rules.inHead
  | .afterHead => Rules.afterHead
  | .inBody => Rules.inBody
  | .inText => Rules.inText
  | .inTable => Rules.inTable
  | .inTableText => Rules.inTableText
  | .inCaption => Rules.inCaption
  | .inColumnGroup => Rules.inColumnGroup
  | .inTableBody => Rules.inTableBody
  | .inRow => Rules.inRow
  | .inCell => Rules.inCell
  | .inSelect => Rules.inSelect
  | .inSelectInTable => Rules.inSelectInTable
  | .inTemplate => Rules.inTemplate
  | .afterBody => Rules.afterBody
  | .inFrameset => Rules.inFrameset
  | .afterFrameset => Rules.afterFrameset
  | .afterAfterBody => Rules.afterAfterBody
  | .afterAfterFrameset => Rules.afterAfterFrameset

/-- One item until a rule is done with it. -/
def settle (b : Builder) (item : Item) (mode : Option Mode) : (steps : Nat) → Builder
  | 0 => b
  | steps + 1 =>
    let outcome :=
      match mode with
      | some mode => rulesOf mode b item
      | none => if b.readsForeign item then Rules.inForeign b item else rulesOf b.mode b item
    match outcome with
    | (b, .next) => { b with fostering := false }
    | (b, .again) => settle { b with fostering := false } item none steps
    | (b, .byRules mode) => settle b item (some mode) steps

/-- Each item is done with after a few steps for every element that it closes. -/
def process (b : Builder) (item : Item) : Builder :=
  b.settle item none (16 * (b.opened.length + 4))

/-- Modes that treat white space and other text differently. -/
def splitsText : Mode → Bool
  | .initial | .beforeHtml | .beforeHead | .inHead | .afterHead | .inColumnGroup | .afterBody
  | .inFrameset | .afterFrameset | .afterAfterBody | .afterAfterFrameset => true
  | _ => false

/-- Text goes in as it is, or run by run of white space and other characters. -/
def addStretch (b : Builder) (s : List Char) : (runs : Nat) → Builder
  | 0 => b
  | runs + 1 =>
    match s with
    | [] => b
    | c :: _ =>
      if b.readsForeign (.text "") || !splitsText b.mode then b.process (.text (String.ofList s))
      else
        let alike (d : Char) : Bool := isFiller d = isFiller c
        let b := b.process (.text (String.ofList (s.takeWhile alike)))
        b.addStretch (s.dropWhile alike) runs

def addDoctype (b : Builder) (d : Doctype) : Builder :=
  if b.mode = .initial then
    { b with
      table := b.table.setDoctype
        ⟨d.name.getD "", d.publicId.getD "", d.systemId.getD ""⟩
      readsOldWay := d.isOld
      mode := .beforeHtml }
  else b

def add (b : Builder) (token : Token) : Builder :=
  let drops := b.dropsLineFeed
  let b := { b with dropsLineFeed := false }
  match token with
  | .doctype d => b.addDoctype d
  | .opening tag => { b with kind := .markup }.process (.opening tag)
  | .closing tag => { b with kind := .markup }.process (.closing tag)
  | .comment s => b.process (.comment s)
  | .null => b.process .null
  | .finish => b.process .finish
  | .text s =>
    let s := s.toList
    let s := if drops && s.head? = some '\n' then s.drop 1 else s
    b.addStretch s s.length

/-- Reads on to the end. Every step takes some of the text. -/
def read (b : Builder) (s : List Char) : Builder :=
  let (tokens, rest) := Html.next b.kind b.inForeign s
  let b := tokens.foldl add b
  if rest.length < s.length then read b rest else b
termination_by s.length

end Builder

/-- The document of a text. -/
def read (text : String) : Dom.Table := (({} : Builder).read (prepared text)).table

end AuthoredStyle.Html
