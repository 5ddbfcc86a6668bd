import AuthoredStyle.Page.Path
import AuthoredStyle.Selector.Match
import AuthoredStyle.Sheet.RuleSet
import AuthoredStyle.SourceMap.Index
import AuthoredStyle.StyleTree.Node
import AuthoredStyle.Value.Normal

/-!
# Building the style tree of an element

Each element's node reads computed values for the properties that the rules
matching it declare, or for all that were authored anywhere when no rule does.
Values that say nothing are left out. A longhand is left out as well when a
source that counts for the element declares its shorthand and none of its
longhands. Without a source map every property is read and no rule is looked at.

The tree is as deep as asked for; `room` counts the generations still allowed.
-/

namespace AuthoredStyle

structure BuildOptions where
  maxDepth : Nat := 5
  useSourceMap : Bool := true
  deriving DecidableEq, Repr

/-- What a tree is built from. -/
structure Inspection where
  page : Page
  rules : Sheet.RuleSet
  index : SourceMap.Index
  useSourceMap : Bool

namespace Inspection

def matching (v : Inspection) (h : Page.Handle) : List Sheet.PlainRule :=
  if v.useSourceMap then v.rules.plain.filter fun r => Selector.selects r.selector v.page h else []

/-- The properties to read, in the order of the table. -/
def candidates (v : Inspection) (matching : List Sheet.PlainRule) : List String :=
  if v.useSourceMap then
    let declared := Property.important.filter fun p => matching.any fun r => p ∈ r.properties
    if declared.isEmpty then Property.important.filter fun p => p ∈ v.index.all else declared
  else Property.important

def fontSize (v : Inspection) (h : Page.Handle) : Option Float :=
  Value.px? (v.page.computed h "font-size").toList

/-- The styles with the computed value of one more property in authored form, if it is
meaningful. -/
def withAuthored (v : Inspection) (h : Page.Handle) (styles : Styles) (property : String) :
    Styles :=
  match meaningful? property (v.page.computed h property) with
  | some value => styles.insert property (Value.normalize property value (v.fontSize h))
  | none => styles

/-- The meaningful computed values of some properties, in authored form. -/
def authoredValues (v : Inspection) (h : Page.Handle) (properties : List String) : Styles :=
  properties.foldl (v.withAuthored h) ∅

/-- The authored properties of each source that counts for an element: those of
the matching rules' files, or of every file when no rule matches. -/
def authoredSets (v : Inspection) (matching : List Sheet.PlainRule) : List NameSet :=
  if matching.isEmpty then v.index.byFile.values
  else matching.filterMap fun r => v.index.file? r.file

/-- A source declares the shorthand and none of its longhands. -/
def isShorthandOnly (sets : List NameSet) (shorthand : String) : Bool :=
  sets.any fun s =>
    decide (shorthand ∈ s) && !(Property.longhands shorthand).any fun l => decide (l ∈ s)

/-- A shorthand that is there and that some source declares alone drives its longhands out. -/
def dropLonghands (sets : List NameSet) (styles : Styles) (shorthand : String) : Styles :=
  if styles.contains shorthand && isShorthandOnly sets shorthand then
    styles.filterKeys fun p => !(Property.longhands shorthand).contains p
  else styles

/-- Each shorthand in its turn, on what the ones before it have left. -/
def withoutRedundant (styles : Styles) (sets : List NameSet) : Styles :=
  Property.shorthands.foldl (dropLonghands sets) styles

def styles (v : Inspection) (h : Page.Handle) : Styles :=
  let matching := v.matching h
  let read := v.authoredValues h (v.candidates matching)
  if v.useSourceMap then withoutRedundant read (v.authoredSets matching) else read

/-- Declared values in authored form for an element's font size. -/
def normalized (v : Inspection) (h : Page.Handle) (declared : Styles) : Styles :=
  declared.entries.foldl (fun s e => s.insert e.1 (Value.normalize e.1 e.2 (v.fontSize h))) ∅

def pseudo (v : Inspection) (h : Page.Handle) : GroupedStyles :=
  if v.useSourceMap then
    (v.rules.pseudo.filter fun r => Selector.selects r.selector v.page h).foldl
      (fun g r => g.add r.element.text (v.normalized h r.properties)) ∅
  else ∅

def media (v : Inspection) (h : Page.Handle) : GroupedStyles :=
  if v.useSourceMap then
    (v.rules.media.filter fun r => Selector.selects r.selector v.page h).foldl
      (fun g r => g.add r.breakpoint (v.normalized h r.properties)) ∅
  else ∅

def hover (v : Inspection) (h : Page.Handle) : Styles :=
  if v.useSourceMap then
    (v.rules.hover.filter fun r => Selector.selects r.selector v.page h).foldl
      (fun s r => s.override (v.normalized h r.properties)) ∅
  else ∅

/-- The node of one element, without its children. -/
def node (v : Inspection) (h : Page.Handle) (path : String) (depth : Nat) : StyleNode :=
  let id := (v.page.id? h).filter (· ≠ "")
  { selector := StyleNode.selectorFor (v.page.tag h) id (v.page.classes h)
    path := path
    tag := v.page.tag h
    id := id
    classes := v.page.classes h
    styles := v.styles h
    pseudo := v.pseudo h
    media := v.media h
    hover := v.hover h
    depth := depth }

/-- Each sibling with its ordinal among those of its tag; `met` counts the tags
of the siblings before. -/
def ordinals (v : Inspection) (met : Dict Nat) : List Page.Handle → List (Page.Handle × Nat)
  | [] => []
  | c :: siblings =>
    let ordinal := (met.get? (v.page.tag c)).getD 0 + 1
    (c, ordinal) :: v.ordinals (met.insert (v.page.tag c) ordinal) siblings

/-- The path of a child, given its parent's. -/
def childPath (v : Inspection) (path : String) (child : Page.Handle) (ordinal : Nat) : String :=
  path ++ "/" ++ Page.Step.text ⟨v.page.tag child, ordinal⟩

def treeFrom (v : Inspection) :
    (room : Nat) → (h : Page.Handle) → (path : String) → (depth : Nat) → StyleNode
  | 0, h, path, depth => v.node h path depth
  | room + 1, h, path, depth =>
    { v.node h path depth with
      children := (v.ordinals ∅ (v.page.children h)).map fun (c, ordinal) =>
        v.treeFrom room c (v.childPath path c ordinal) (depth + 1) }

/-- The style tree of an element, `maxDepth` generations deep. -/
def tree (v : Inspection) (maxDepth : Nat) (h : Page.Handle) : StyleNode :=
  v.treeFrom maxDepth h (v.page.pathOf h) 0

end Inspection

end AuthoredStyle
