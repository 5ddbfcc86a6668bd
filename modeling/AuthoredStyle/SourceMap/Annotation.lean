import AuthoredStyle.Text.Search

/-!
# The source map annotation of a stylesheet

Only the last mention of `sourceMappingURL=` counts, and only when it stands
right behind `/*#` or `/*@`. Its address ends at a blank or a star.
-/

namespace AuthoredStyle.SourceMap

def annotationMark : List Char := "sourceMappingURL=".toList

/-- The parts around the last occurrence of a pattern. -/
def cutLastText? (pattern s : List Char) : Option (List Char × List Char) :=
  (Text.cut? pattern.reverse s.reverse).map fun (after, before) => (before.reverse, after.reverse)

def opensAnnotation (before : List Char) : Bool :=
  let said := Text.trimEnd before
  (Text.dropEnding? "/*#".toList said).isSome || (Text.dropEnding? "/*@".toList said).isSome

def mapReference? (css : String) : Option String :=
  match cutLastText? annotationMark css.toList with
  | none => none
  | some (before, after) =>
    let value := after.takeWhile fun c => !Text.isBlank c && c ≠ '*'
    if opensAnnotation before && !value.isEmpty then some (String.ofList value) else none

end AuthoredStyle.SourceMap
