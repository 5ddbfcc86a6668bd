import AuthoredStyle.Json.Schema
import AuthoredStyle.Libraries.Basic
import AuthoredStyle.Page.Snapshot

/-!
# Snapshots as JSON

A snapshot is read from a host's JSON text and written back in one form: every
field present, a missing id as null, computed values by name. `room` counts the
arrays and objects that may still be nested in one another.
-/

namespace AuthoredStyle.Page

open Json (fields? optional?)

def Stylesheet.ofFields? (kind : String) (fields : Json) : Option Stylesheet :=
  match kind with
  | "external" => do
    match ← fields? ["href"] fields with
    | [some href] => return .external (← href.text?)
    | _ => none
  | "inline" => do
    match ← fields? ["text", "baseUrl"] fields with
    | [some text, some baseUrl] => return .inline (← text.text?) (← baseUrl.text?)
    | _ => none
  | _ => none

/-- The kind is a member, or the first item of an array. -/
def Stylesheet.ofJson? (room : Nat) (j : Json) : Option Stylesheet :=
  if !j.isPlain || room < j.depth then none
  else
    match j with
    | .object members =>
      match Json.valuesOf "kind" members with
      | [.text kind] => ofFields? kind (.object (members.filter (·.1 ≠ "kind")))
      | _ => none
    | .array (.text kind :: items) => ofFields? kind (.array items)
    | _ => none

def Stylesheet.toJson : Stylesheet → Json
  | .external href => .object [("kind", .text "external"), ("href", .text href)]
  | .inline text baseUrl =>
    .object [("kind", .text "inline"), ("text", .text text), ("baseUrl", .text baseUrl)]

namespace ElementSnapshot

/-- The element's object and the array of its children each take room. -/
def ofJson? : (room : Nat) → Json → Option ElementSnapshot
  | 0, _ => none
  | room + 1, j => do
    match ← fields? ["tagName", "id", "classes", "computed", "children"] j with
    | [some tag, id, classes, computed, children] =>
      if room = 0 ∧ (classes.isSome ∨ computed.isSome ∨ children.isSome) then none
      else
        let child? : Json → Option ElementSnapshot :=
          match room with
          | 0 => fun _ => none
          | room + 1 => ofJson? room
        return {
          tag := ← tag.text?
          id := ← optional? none (Json.nullable? Json.text?) id
          classes := ← optional? [] (Json.list? Json.text?) classes
          computed := ← optional? ∅ (Json.dict? Json.text?) computed
          children := ← optional? [] (Json.list? child?) children }
    | _ => none

mutual

def toJson : ElementSnapshot → Json
  | ⟨tag, id, classes, computed, children⟩ =>
    .object [
      ("tagName", .text tag),
      ("id", match id with | some i => .text i | none => .null),
      ("classes", .array (classes.map .text)),
      ("computed", .object (computed.entries.map fun e => (e.1, .text e.2))),
      ("children", .array (toJsonList children))]

def toJsonList : List ElementSnapshot → List Json
  | [] => []
  | t :: ts => t.toJson :: toJsonList ts

end

end ElementSnapshot

namespace Snapshot

def ofJson? (room : Nat) (j : Json) : Option Snapshot := do
  match ← fields? ["document", "stylesheets"] j with
  | [some document, stylesheets] =>
    return {
      document := ← ElementSnapshot.ofJson? (room - 1) document
      stylesheets := ← optional? [] (Json.list? (Stylesheet.ofJson? (room - 2))) stylesheets }
  | _ => none

/-- A snapshot from JSON text. -/
def read? [Libraries] (text : String) : Option Snapshot :=
  (Libraries.jsonRecord? text).bind (ofJson? (Json.depthLimit - 1))

def toJson (s : Snapshot) : Json :=
  .object [
    ("document", s.document.toJson),
    ("stylesheets", .array (s.stylesheets.map Stylesheet.toJson))]

end Snapshot

end AuthoredStyle.Page
