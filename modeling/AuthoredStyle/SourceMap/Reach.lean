import AuthoredStyle.SourceMap.Resolution

/-!
# What a load asks for

Resolving a stylesheet asks for its text, then for its map, then for the map's
main sources, each only when the one before was found. The addresses are listed
here, round by round, for whoever has to bring the bodies first: what a round
asks for is known when everything that earlier rounds ask for is there.
-/

namespace AuthoredStyle.SourceMap

variable [Libraries]

/-- The address of a stylesheet's map, once the sheet is there. -/
def mapUrl? (fetch : Fetcher) (sheet : Page.Stylesheet) : Option String := do
  let (css, base) ← (sheetText fetch sheet).toOption
  (resolveUrl base (← mapReference? css)).toOption

/-- The addresses of main sources whose text the map does not hold. -/
def sourcesAsked (map : MapFile) (mapUrl cssFile : String) : List String :=
  map.sources.zipIdx.filterMap fun (source, place) =>
    let embedded := ((map.sourcesContent.getD [])[place]?).join
    if isDependency source || !isMainSource source (stem cssFile) || embedded.isSome then none
    else (resolveUrl mapUrl (sourceReference map.sourceRoot source)).toOption

/-- The addresses that one round asks for. -/
def askedIn (fetch : Fetcher) (sheet : Page.Stylesheet) : (round : Nat) → List String
  | 0 =>
    match sheet with
    | .external href => [href]
    | .inline .. => []
  | 1 => (mapUrl? fetch sheet).toList
  | 2 =>
    match mapUrl? fetch sheet with
    | none => []
    | some mapUrl =>
      match loadMap fetch mapUrl with
      | .ok map => sourcesAsked map mapUrl (fileWithMap sheet mapUrl map)
      | .error _ => []
  | _ => []

/-- The addresses that one stylesheet leads to, as far as they can be followed. -/
def asked (fetch : Fetcher) (sheet : Page.Stylesheet) : List String :=
  (List.range 3).flatMap (askedIn fetch sheet)

end AuthoredStyle.SourceMap
