import AuthoredStyle.Dict
import AuthoredStyle.Json.Value
import AuthoredStyle.Property.Table
import AuthoredStyle.Text.Blank

/-!
# Nodes of a style tree

A node stands for one element of the page and holds what an author is taken to
have written for it: its own styles, those of its `::before` and `::after`
boxes, those at each breakpoint, and those for hovering.
-/

namespace AuthoredStyle

abbrev Styles := Dict String

namespace Styles

/-- The entries of the second over those of the first. -/
def override (a b : Styles) : Styles := b.entries.foldl (fun d e => d.insert e.1 e.2) a

def toJson (s : Styles) : Json := .object (s.entries.map fun e => (e.1, .text e.2))

end Styles

/-- Styles sorted under a second name, such as a breakpoint. -/
abbrev GroupedStyles := Dict Styles

namespace GroupedStyles

def add (g : GroupedStyles) (group : String) (s : Styles) : GroupedStyles :=
  g.insert group (((g.get? group).getD ∅).override s)

def toJson (g : GroupedStyles) : Json := .object (g.entries.map fun e => (e.1, e.2.toJson))

end GroupedStyles

structure StyleNode where
  /-- The short selector it is nested under. -/
  selector : String := ""
  /-- The path that leads back to the element. -/
  path : String := ""
  tag : String := ""
  id : Option String := none
  classes : List String := []
  styles : Styles := ∅
  pseudo : GroupedStyles := ∅
  media : GroupedStyles := ∅
  hover : Styles := ∅
  children : List StyleNode := []
  depth : Nat := 0

namespace StyleNode

instance : Inhabited StyleNode := ⟨{}⟩

mutual

/-- The node and all below it, in document order. -/
def nodes : StyleNode → List StyleNode
  | ⟨selector, path, tag, id, classes, styles, pseudo, media, hover, children, depth⟩ =>
    ⟨selector, path, tag, id, classes, styles, pseudo, media, hover, children, depth⟩ ::
      nodesBelow children

def nodesBelow : List StyleNode → List StyleNode
  | [] => []
  | n :: ns => n.nodes ++ nodesBelow ns

end

theorem nodes_eq (m : StyleNode) : m.nodes = m :: nodesBelow m.children := by
  cases m
  rw [nodes]

mutual

def toJson : StyleNode → Json
  | ⟨selector, path, tag, id, classes, styles, pseudo, media, hover, children, depth⟩ =>
    .object [
      ("selector", .text selector),
      ("xpath", .text path),
      ("tagName", .text tag),
      ("id", match id with | some i => .text i | none => .null),
      ("classes", .array (classes.map .text)),
      ("styles", styles.toJson),
      ("pseudoElements", pseudo.toJson),
      ("mediaQueries", media.toJson),
      ("hoverStyles", hover.toJson),
      ("children", .array (toJsonList children)),
      ("depth", .int depth)]

def toJsonList : List StyleNode → List Json
  | [] => []
  | n :: ns => n.toJson :: toJsonList ns

end

/-- The id if there is one, else the first class behind the tag unless that is
`div`, else the tag. -/
def selectorFor (tag : String) (id : Option String) (classes : List String) : String :=
  match id.filter (· ≠ ""), classes.head? with
  | some i, _ => "#" ++ i
  | none, some c => if tag = "div" then "." ++ c else tag ++ "." ++ c
  | none, none => tag

end StyleNode

/-- Values that mean nothing was authored, whatever the property. -/
def emptyValues : List String := ["none", "normal", "auto"]

/-- A computed value, trimmed, unless it only says that nothing was authored. An
element that is not displayed is always worth saying. -/
def meaningful? (property value : String) : Option String :=
  let said := String.ofList (Text.trim value.toList)
  if said = "" then none
  else if property = "display" ∧ said = "none" then some said
  else if (Property.defaults property).contains said || emptyValues.contains said then none
  else some said

end AuthoredStyle
