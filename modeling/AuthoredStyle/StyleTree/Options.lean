import AuthoredStyle.Json.Schema
import AuthoredStyle.StyleTree.Build
import AuthoredStyle.StyleTree.Scss

/-!
# Options as JSON

Options may leave out any of their fields; a field that is present has to have
its type.
-/

namespace AuthoredStyle

open Json (fields? optional?)

def BuildOptions.ofJson? (j : Json) : Option BuildOptions := do
  let plain : BuildOptions := {}
  match ← fields? ["maxDepth", "useSourceMap"] j with
  | [maxDepth, useSourceMap] =>
    return {
      maxDepth := ← optional? plain.maxDepth Json.nat? maxDepth
      useSourceMap := ← optional? plain.useSourceMap Json.bool? useSourceMap }
  | _ => none

def Scss.Options.ofJson? (j : Json) : Option Scss.Options := do
  let plain : Scss.Options := {}
  match ← fields? ["emitMediaQueryMixins", "emitHoverMixin", "emitFontSizeMixin"] j with
  | [media, hover, fontSize] =>
    return {
      media := ← optional? plain.media Json.bool? media
      hover := ← optional? plain.hover Json.bool? hover
      fontSize := ← optional? plain.fontSize Json.bool? fontSize }
  | _ => none

end AuthoredStyle
