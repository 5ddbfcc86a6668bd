import AuthoredStyle.Json.Schema
import AuthoredStyle.Page.Snapshot
import AuthoredStyle.Sheet.Reading
import AuthoredStyle.SourceMap.Annotation
import AuthoredStyle.SourceMap.Authored
import AuthoredStyle.SourceMap.Fetch
import AuthoredStyle.SourceMap.Index

/-!
# Resolving stylesheets through their source maps

A stylesheet without annotation counts as somebody else's and contributes
nothing, and so does one that cannot be fetched. One with an annotation
contributes its rules in any case, and the properties its main sources declare
as far as its map and they can be read.
-/

namespace AuthoredStyle.SourceMap

/-- The fields of a source map that matter here. -/
structure MapFile where
  file : Option String := none
  sourceRoot : Option String := none
  sources : List String := []
  sourcesContent : Option (List (Option String)) := none
  deriving DecidableEq, Repr

namespace MapFile

open Json (optional?)

def ofJson? (j : Json) : Option MapFile := do
  match ← Json.fields? ["file", "sourceRoot", "sources", "sourcesContent"] j with
  | [file, sourceRoot, sources, sourcesContent] =>
    let texts? := Json.list? (Json.nullable? Json.text?)
    return {
      file := ← optional? none (Json.nullable? Json.text?) file
      sourceRoot := ← optional? none (Json.nullable? Json.text?) sourceRoot
      sources := ← optional? [] (Json.list? Json.text?) sources
      sourcesContent := ← optional? none (Json.nullable? texts?) sourcesContent }
  | _ => none

def read? [Libraries] (text : String) : Option MapFile :=
  (Libraries.jsonRecord? text).bind ofJson?

end MapFile

/-! ## File names -/

/-- The last segment of a path, without query and fragment. -/
def fileName (path : String) : String :=
  let bare := path.toList.takeWhile fun c => c ≠ '?' && c ≠ '#'
  match Text.cutLast? '/' bare with
  | some (_, name) => String.ofList name
  | none => String.ofList bare

/-- Map extensions off the end, from the reversed text. -/
def dropMapEndingsReversed : List Char → List Char
  | 'p' :: 'a' :: 'm' :: '.' :: s => dropMapEndingsReversed s
  | s => s

def dropMapEndings (s : String) : String :=
  String.ofList (dropMapEndingsReversed s.toList.reverse).reverse

def stem (cssFile : String) : String :=
  String.ofList ((Text.dropEnding? ".css".toList cssFile.toList).getD cssFile.toList)

/-! ## Sources -/

def isDependency (source : String) : Bool :=
  (Text.dropEnding? ".css".toList source.toList).isSome ||
    Text.holds "node_modules/".toList source.toList

/-- The main source of a stylesheet has its stem and is no partial. -/
def isMainSource (source stem : String) : Bool :=
  let name := (fileName source).toList
  match Text.cutLast? '.' name with
  | some (front, extension) =>
    name.head? ≠ some '_' && String.ofList front = stem &&
      ["scss", "sass"].contains (String.ofList (Text.lower extension))
  | none => false

/-- A source's reference, behind the map's source root if it has one. -/
def sourceReference (root : Option String) (source : String) : String :=
  match root with
  | some r =>
    if r = "" then source
    else String.ofList (r.toList.reverse.dropWhile (· = '/')).reverse ++ "/" ++ source
  | none => source

variable [Libraries]

/-- A source's text: embedded in the map, or fetched. -/
def sourceText (fetch : Fetcher) (map : MapFile) (mapUrl source : String) (place : Nat) :
    Except Error String :=
  match ((map.sourcesContent.getD [])[place]?).join with
  | some content => .ok content
  | none => do fetch (← resolveUrl mapUrl (sourceReference map.sourceRoot source))

/-- What one source of a map contributes; a source that cannot be read is empty. -/
def sourceProperties (fetch : Fetcher) (map : MapFile) (mapUrl cssFile : String)
    (source : String × Nat) : NameSet :=
  if isDependency source.1 || !isMainSource source.1 (stem cssFile) then ∅
  else
    match sourceText fetch map mapUrl source.1 source.2 with
    | .ok text => authoredProperties text
    | .error _ => ∅

def mapProperties (fetch : Fetcher) (map : MapFile) (mapUrl cssFile : String) : NameSet :=
  map.sources.zipIdx.foldl (fun s source => s ∪ sourceProperties fetch map mapUrl cssFile source) ∅

/-! ## Stylesheets -/

def loadMap (fetch : Fetcher) (url : String) : Except Error MapFile := do
  let body ← if Text.hasLead dataLead url.toList then decodeDataUrl url else fetch url
  match MapFile.read? body with
  | some map => .ok map
  | none => .error .badSourceMap

/-- What one stylesheet with an annotation contributes. -/
structure Contribution where
  file : String
  authored : NameSet
  rules : Sheet.RuleSet

/-- A sheet whose map is out of reach is filed by its own address, or by the
map's. -/
def fileWithoutMap (sheet : Page.Stylesheet) (mapUrl : String) : String :=
  match sheet with
  | .external href => fileName href
  | .inline .. => fileName (dropMapEndings mapUrl)

def fileWithMap (sheet : Page.Stylesheet) (mapUrl : String) (map : MapFile) : String :=
  match sheet with
  | .external href => fileName href
  | .inline .. =>
    match map.file.filter (· ≠ "") with
    | some file => fileName file
    | none => dropMapEndings (fileName mapUrl)

def contributionWithoutMap (sheet : Page.Stylesheet) (mapUrl css : String) : Contribution :=
  let file := fileWithoutMap sheet mapUrl
  ⟨file, ∅, Sheet.read css file⟩

/-- The stylesheet's text and the address that it is relative to. -/
def sheetText (fetch : Fetcher) : Page.Stylesheet → Except Error (String × String)
  | .external href => (fetch href).map (·, href)
  | .inline text baseUrl => .ok (text, baseUrl)

def contribution? (fetch : Fetcher) (sheet : Page.Stylesheet) : Option Contribution :=
  match sheetText fetch sheet with
  | .error _ => none
  | .ok (css, baseUrl) =>
    (mapReference? css).map fun reference =>
      match resolveUrl baseUrl reference with
      | .error _ => contributionWithoutMap sheet reference css
      | .ok mapUrl =>
        match loadMap fetch mapUrl with
        | .error _ => contributionWithoutMap sheet mapUrl css
        | .ok map =>
          let file := fileWithMap sheet mapUrl map
          ⟨file, mapProperties fetch map mapUrl file, Sheet.read css file⟩

/-- Everything that one load of a page's stylesheets yields. -/
structure Resolution where
  index : Index := ∅
  rules : Sheet.RuleSet := ∅
  deriving DecidableEq

namespace Resolution

instance : EmptyCollection Resolution := ⟨{}⟩
instance : Inhabited Resolution := ⟨∅⟩

def add (r : Resolution) (c : Contribution) : Resolution :=
  ⟨r.index.insert c.file c.authored, r.rules ++ c.rules⟩

end Resolution

/-- The contributions of all stylesheets, merged in document order. -/
def resolve (fetch : Fetcher) (sheets : List Page.Stylesheet) : Resolution :=
  (sheets.filterMap (contribution? fetch)).foldl .add ∅

end AuthoredStyle.SourceMap
