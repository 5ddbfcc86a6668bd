import AuthoredStyle.Error
import AuthoredStyle.Libraries.Basic
import AuthoredStyle.StyleTree.Options

/-!
# Requests of a host

A request is a JSON object whose `action` names a command; the other members are
the command's fields. An action that is not known is reported by its name, and a
missing or non-text action counts as the empty name.
-/

namespace AuthoredStyle

inductive Command where
  | loadSourceMaps
  | clearSourceMaps
  | sourceMapStatus
  | styleTree (path : String) (useSourceMap : Option Bool) (maxDepth : Option Nat)
  | elementInfo (path : String)
  | scss (path : String) (useSourceMap : Option Bool) (options : Scss.Options)
  deriving DecidableEq, Repr

namespace Command

open Json (optional? nullable?)

/-- The fields of a command of a known action. -/
def ofFields? (action : String) (fields : Json) : Option Command :=
  match action with
  | "loadSourceMaps" => some loadSourceMaps
  | "clearSourceMaps" => some clearSourceMaps
  | "getSourceMapStatus" => some sourceMapStatus
  | "buildStyleTree" => do
    match ← Json.fields? ["xpath", "useSourceMap", "maxDepth"] fields with
    | [some path, useSourceMap, maxDepth] =>
      return styleTree (← path.text?) (← optional? none (nullable? Json.bool?) useSourceMap)
        (← optional? none (nullable? Json.nat?) maxDepth)
    | _ => none
  | "getElementInfo" => do
    match ← Json.fields? ["xpath"] fields with
    | [some path] => return elementInfo (← path.text?)
    | _ => none
  | "renderSass" => do
    match ← Json.fields? ["xpath", "useSourceMap", "options"] fields with
    | [some path, useSourceMap, options] =>
      return scss (← path.text?) (← optional? none (nullable? Json.bool?) useSourceMap)
        (← optional? {} Scss.Options.ofJson? options)
    | _ => none
  | _ => none

def actions : List String :=
  ["loadSourceMaps", "clearSourceMaps", "getSourceMapStatus", "buildStyleTree", "getElementInfo",
   "renderSass"]

def actionOf : Json → String
  | .object members =>
    match Json.valuesOf "action" members with
    | .text action :: _ => action
    | _ => ""
  | _ => ""

def read [Libraries] (request : String) : Except Error Command :=
  match Libraries.jsonValue? request with
  | none => .error .badJson
  | some j =>
    let action := actionOf j
    if !actions.contains action then .error (.unknownCommand action)
    else
      match ofFields? action j with
      | some command => .ok command
      | none => .error .badJson

end Command

end AuthoredStyle
