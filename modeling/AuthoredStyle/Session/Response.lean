import AuthoredStyle.Error
import AuthoredStyle.Json.Value
import AuthoredStyle.SourceMap.Index
import AuthoredStyle.StyleTree.Node

/-!
# Answers to a host

Each answer is one JSON object. All but the source map status carry a `status`.
-/

namespace AuthoredStyle

structure ElementInfo where
  tag : String
  id : Option String
  classes : List String
  childCount : Nat
  deriving DecidableEq, Repr

inductive Response where
  | loaded (index : SourceMap.Index)
  | sourceMapStatus (index : SourceMap.Index)
  | tree (node : StyleNode)
  | element (info : ElementInfo)
  | text (text : String)
  | done
  | failed (error : Error)

namespace Response

def texts (ss : List String) : Json := .array (ss.map .text)

def count (n : Nat) : Json := .int n

def okay : String × Json := ("status", .text "ok")

def fileStatus (names : NameSet) : Json :=
  .object [("count", count names.size), ("properties", texts names.toList)]

def ElementInfo.toJson (info : ElementInfo) : Json :=
  .object [
    ("tagName", .text info.tag),
    ("id", match info.id with | some i => .text i | none => .null),
    ("classes", texts info.classes),
    ("childCount", count info.childCount)]

def toJson : Response → Json
  | loaded index =>
    .object [okay, ("propertyCount", count index.propertyCount),
      ("properties", texts index.all.toList)]
  | sourceMapStatus index =>
    .object [
      ("hasSourceMap", .bool index.hasSourceMap),
      ("propertyCount", count index.propertyCount),
      ("properties", texts index.all.toList),
      ("byFile", .object (index.byFile.entries.map fun e => (e.1, fileStatus e.2)))]
  | tree node => .object [okay, ("data", node.toJson)]
  | element info => .object [okay, ("data", ElementInfo.toJson info)]
  | text s => .object [okay, ("data", .text s)]
  | done => .object [okay]
  | failed error => .object [("status", .text "error"), ("error", .text error.message)]

end Response

end AuthoredStyle
