import Mathlib.Data.List.DropRight
import AuthoredStyle.Proofs.SourceMap.FileName

/-!
# Main sources

What a map says of a file is what the main sources of the file declare. Whether a source is
one can be told from its address and the file's name alone: it goes by the file's stem with a
preprocessor's extension, is no partial and belongs to no dependency. Its text stands in the
map at the source's own place, or else is fetched from behind the map's source root, and is empty
if it cannot be had.

So two readings of maps that list the same sources come to the same properties unless the text
of a main source differs. How properties are found in a text is not looked into.
-/

namespace AuthoredStyle.SourceMap

/-! ## Which sources are main -/

/-- The name of a file less the ending `.css`, if it has it. -/
def IsStem (stem file : List Char) : Prop :=
  file = stem ++ ".css".toList ∨ stem = file ∧ ¬ ".css".toList <:+ file

/-- The file's stem behind an extension of a preprocessor, in whatever case, but no partial. -/
def IsMainName (cssFile name : List Char) : Prop :=
  name.head? ≠ some '_' ∧
    ∃ stem extension, name = stem ++ '.' :: extension ∧ IsStem stem cssFile ∧
      (Text.lower extension = "scss".toList ∨ Text.lower extension = "sass".toList)

/-- The name is told from the last segment; the other conditions are on the source as it is
listed, query and all. -/
structure IsMain (cssFile source : String) : Prop where
  named : ∃ folder name tail, IsCutAt source.toList folder name tail ∧ IsMainName cssFile.toList name
  no_sheet : ¬ ".css".toList <:+ source.toList
  no_dependency : ¬ "node_modules/".toList <:+: source.toList

theorem isStem_iff {cssFile : String} {s : List Char} :
    IsStem s cssFile.toList ↔ String.ofList s = stem cssFile := by
  rw [IsStem, stem]
  generalize ".css".toList = ending
  rw [← Text.isSome_dropEnding?_iff, String.ofList_inj]
  cases cut : Text.dropEnding? ending cssFile.toList with
  | none =>
    have unended : cssFile.toList ≠ s ++ ending := by
      intro ended
      rw [ended, Text.dropEnding?_append] at cut
      cases cut
    simp [unended]
  | some rest =>
    simp [Text.eq_of_dropEnding? cut, eq_comm]

theorem isDependency_iff {source : String} :
    isDependency source = true ↔
      ".css".toList <:+ source.toList ∨ "node_modules/".toList <:+: source.toList := by
  rw [isDependency, Bool.or_eq_true, Text.isSome_dropEnding?_iff, Text.holds_iff]

/-- No extension of a preprocessor has a point in it, so it stands behind the last one. -/
theorem point_not_mem_extension {extension : List Char}
    (known : Text.lower extension = "scss".toList ∨ Text.lower extension = "sass".toList) :
    '.' ∉ extension := by
  intro inside
  have lowered : '.' ∈ Text.lower extension := List.mem_map.mpr ⟨'.', inside, rfl⟩
  rcases known with same | same <;> exact absurd (same ▸ lowered) (by decide)

theorem isMainSource_iff {source cssFile : String} :
    isMainSource source (stem cssFile) = true ↔
      IsMainName cssFile.toList (fileName source).toList := by
  have extensions (l : List Char) : ["scss", "sass"].contains (String.ofList l) = true ↔
      l = "scss".toList ∨ l = "sass".toList := by
    rw [List.contains_iff_mem, List.mem_pair, ← String.toList_inj, ← String.toList_inj,
      String.toList_ofList]
  rw [isMainSource, IsMainName]
  cases cut : Text.cutLast? '.' (fileName source).toList with
  | none =>
    have pointless := Text.cutLast?_eq_none_iff.mp cut
    refine iff_of_false (by simp) ?_
    rintro ⟨-, stem', extension, split, -⟩
    exact pointless (by simp [split])
  | some parts =>
    obtain ⟨front, extension⟩ := parts
    obtain ⟨split, lone⟩ := Text.eq_of_cutLast? cut
    simp only [Bool.and_eq_true, decide_eq_true_eq, extensions, ← isStem_iff, and_assoc]
    refine and_congr_right fun _ => ⟨fun main => ⟨front, extension, split, main⟩, ?_⟩
    rintro ⟨stem', extension', split', ofFile, known⟩
    have other := Text.cutLast?_last stem' (point_not_mem_extension known)
    rw [← split', cut] at other
    cases other
    exact ⟨ofFile, known⟩

theorem isMain_iff {source cssFile : String} :
    IsMain cssFile source ↔
      isDependency source = false ∧ isMainSource source (stem cssFile) = true := by
  have own : isDependency source = false ↔
      ¬ ".css".toList <:+ source.toList ∧ ¬ "node_modules/".toList <:+: source.toList := by
    rw [← Bool.not_eq_true, isDependency_iff, not_or]
  rw [own, isMainSource_iff]
  constructor
  · rintro ⟨⟨folder, name, tail, cut, named⟩, noSheet, noDependency⟩
    refine ⟨⟨noSheet, noDependency⟩, ?_⟩
    rwa [cut.fileName_eq, String.toList_ofList]
  · rintro ⟨⟨noSheet, noDependency⟩, named⟩
    obtain ⟨folder, tail, cut⟩ := exists_isCutAt source
    exact ⟨⟨folder, _, tail, cut, named⟩, noSheet, noDependency⟩

/-! ## What a source comes to -/

/-- The text of a source that stands in the map, which may hold no text at its place. -/
def MapFile.embedded? (map : MapFile) (place : Nat) : Option String :=
  map.sourcesContent.bind fun texts => texts[place]?.join

/-- How a source is referred to: as it is listed if there is no source root or an empty one, and
otherwise behind the root, which is written with one slash at its end. -/
inductive IsReference (source : String) : (root : Option String) → (reference : String) → Prop where
  | unrooted : IsReference source none source
  | empty : IsReference source (some "") source
  | rooted {front slashes : List Char} : front ++ slashes ≠ [] → (∀ c ∈ slashes, c = '/') →
      front.getLast? ≠ some '/' →
      IsReference source (some (.ofList (front ++ slashes))) (.ofList front ++ "/" ++ source)

/-- Where a reference leads: to itself if it is an address on its own, and otherwise to what it
comes to when it is joined to the base. -/
inductive LeadsTo [Libraries] (base reference : String) : (url : String) → Prop where
  | alone {u : Libraries.Address} : Libraries.readAddress reference = .ok u →
      LeadsTo base reference (Libraries.addressText u)
  | joined {e : Url.Error} {b u : Libraries.Address} : Libraries.readAddress reference = .error e →
      Libraries.readAddress base = .ok b → Libraries.joinAddress b reference = .ok u →
      LeadsTo base reference (Libraries.addressText u)

/-- What is served where a source's reference leads. -/
def IsServed [Libraries] (fetch : Fetcher) (mapUrl : String) (root : Option String)
    (source text : String) : Prop :=
  ∃ reference url, IsReference source root reference ∧ LeadsTo mapUrl reference url ∧
    fetch url = .ok text

/-- The text of a source: what stands in the map at its place, or else what is served, and
nothing if it cannot be had. -/
inductive HasBody [Libraries] (fetch : Fetcher) (map : MapFile) (mapUrl source : String)
    (place : Nat) : String → Prop where
  | embedded {text : String} : map.embedded? place = some text →
      HasBody fetch map mapUrl source place text
  | served {text : String} : map.embedded? place = none →
      IsServed fetch mapUrl map.sourceRoot source text → HasBody fetch map mapUrl source place text
  | missing : map.embedded? place = none →
      (∀ text, ¬ IsServed fetch mapUrl map.sourceRoot source text) →
      HasBody fetch map mapUrl source place ""

theorem sourceReference_of_ne_empty {root : String} (some : root ≠ "") (source : String) :
    sourceReference (.some root) source =
      .ofList (root.toList.rdropWhile (· = '/')) ++ "/" ++ source := by
  rw [sourceReference, if_neg some]
  rfl

theorem isReference_iff {source reference : String} {root : Option String} :
    IsReference source root reference ↔ reference = sourceReference root source := by
  constructor
  · rintro (_ | _ | @⟨front, slashes, some, ends, bare⟩)
    · rfl
    · rfl
    · have kept : (front ++ slashes).rdropWhile (· = '/') = front := by
        rw [List.rdropWhile, List.reverse_append, List.dropWhile_append_of_pos (by simpa using ends)]
        refine List.rdropWhile_eq_self_iff.mpr fun nonempty => ?_
        rw [List.getLast?_eq_some_getLast nonempty, ne_eq, Option.some.injEq] at bare
        simpa using bare
      rw [sourceReference_of_ne_empty (by simpa using some), String.toList_ofList, kept]
  · rintro rfl
    rcases root with _ | root
    · exact .unrooted
    by_cases none : root = ""
    · rw [none]
      exact .empty
    · have split : root.toList.rdropWhile (· = '/') ++ root.toList.rtakeWhile (· = '/') =
          root.toList := List.rdropWhile_append_rtakeWhile
      have ends : ∀ c ∈ root.toList.rtakeWhile (· = '/'), c = '/' := fun c hc => by
        simpa using List.mem_rtakeWhile_imp hc
      have bare : (root.toList.rdropWhile (· = '/')).getLast? ≠ some '/' := by
        intro last
        have nonempty := List.ne_nil_of_mem (List.mem_of_getLast? last)
        rw [List.getLast?_eq_some_getLast nonempty, Option.some.injEq] at last
        exact List.rdropWhile_last_not _ _ nonempty (by simp [last])
      have reference := @IsReference.rooted source _ _ (by simpa [split] using none) ends bare
      rwa [split, String.ofList_toList, ← sourceReference_of_ne_empty none] at reference

theorem leadsTo_iff [Libraries] {base reference url : String} :
    LeadsTo base reference url ↔ resolveUrl base reference = .ok url := by
  rw [resolveUrl]
  constructor
  · rintro (⟨read⟩ | ⟨unread, read, joined⟩)
    · rw [read]
    · rw [unread, read]
      simp only [joined]
  · intro resolved
    cases read : Libraries.readAddress reference with
    | ok u =>
      rw [read] at resolved
      cases resolved
      exact .alone read
    | error e =>
      rw [read] at resolved
      cases own : Libraries.readAddress base with
      | error e' =>
        rw [own] at resolved
        cases resolved
      | ok b =>
        rw [own] at resolved
        dsimp only at resolved
        cases joined : Libraries.joinAddress b reference with
        | error e' =>
          rw [joined] at resolved
          cases resolved
        | ok u =>
          rw [joined] at resolved
          cases resolved
          exact .joined read own joined

theorem isServed_iff [Libraries] {fetch : Fetcher} {mapUrl source text : String}
    {root : Option String} :
    IsServed fetch mapUrl root source text ↔
      (resolveUrl mapUrl (sourceReference root source) >>= fetch) = .ok text := by
  simp only [IsServed, isReference_iff, leadsTo_iff, exists_and_left, exists_eq_left]
  cases resolveUrl mapUrl (sourceReference root source) with
  | ok url => simp [bind, Except.bind]
  | error e => simp [bind, Except.bind]

theorem embedded?_eq (map : MapFile) (place : Nat) :
    ((map.sourcesContent.getD [])[place]?).join = map.embedded? place := by
  rw [MapFile.embedded?]
  cases map.sourcesContent <;> rfl

theorem authoredProperties_empty : authoredProperties "" = ∅ := by
  decide

section Bodies

variable [Libraries] {fetch : Fetcher} {map : MapFile} {mapUrl cssFile source : String}
  {place : Nat}

theorem sourceText_eq (fetch : Fetcher) (map : MapFile) (mapUrl source : String) (place : Nat) :
    sourceText fetch map mapUrl source place =
      match map.embedded? place with
      | some text => .ok text
      | none => resolveUrl mapUrl (sourceReference map.sourceRoot source) >>= fetch := by
  cases held : map.embedded? place with
  | none => rw [sourceText, embedded?_eq, held]
  | some text => rw [sourceText, embedded?_eq, held]

/-- A text that can be had is the only one. -/
theorem hasBody_iff {text : String} :
    HasBody fetch map mapUrl source place text ↔
      text = ((sourceText fetch map mapUrl source place).toOption).getD "" := by
  rw [sourceText_eq]
  constructor
  · rintro (stands | ⟨lone, served⟩ | ⟨lone, missing⟩)
    · rw [stands]
      rfl
    · rw [lone]
      dsimp only
      rw [isServed_iff.mp served]
      rfl
    · rw [lone]
      dsimp only
      cases read : resolveUrl mapUrl (sourceReference map.sourceRoot source) >>= fetch with
      | ok text => exact absurd (isServed_iff.mpr read) (missing text)
      | error e => rfl
  · rintro rfl
    cases lone : map.embedded? place with
    | some text => exact .embedded lone
    | none =>
      dsimp only
      cases read : resolveUrl mapUrl (sourceReference map.sourceRoot source) >>= fetch with
      | ok text => exact .served lone (isServed_iff.mpr read)
      | error e =>
        refine .missing lone fun text served => ?_
        cases (isServed_iff.mp served).symm.trans read

theorem mem_sourceProperties_iff (main : IsMain cssFile source) {p : String} :
    p ∈ sourceProperties fetch map mapUrl cssFile (source, place) ↔
      ∃ body, HasBody fetch map mapUrl source place body ∧ p ∈ authoredProperties body := by
  obtain ⟨own, named⟩ := isMain_iff.mp main
  simp only [hasBody_iff, exists_eq_left]
  rw [sourceProperties, own, named]
  cases sourceText fetch map mapUrl source place with
  | ok text => rfl
  | error e => exact authoredProperties_empty ▸ Iff.rfl

theorem sourceProperties_of_not_isMain (other : ¬ IsMain cssFile source) :
    sourceProperties fetch map mapUrl cssFile (source, place) = ∅ := by
  have passed : (isDependency source || !isMainSource source (stem cssFile)) = true := by
    rw [isMain_iff] at other
    cases own : isDependency source <;> simp_all
  rw [sourceProperties, if_pos passed]

end Bodies

/-! ## Maps -/

theorem mem_foldl_union {α : Type} (f : α → NameSet) (xs : List α) (s : NameSet) (p : String) :
    p ∈ xs.foldl (fun s x => s ∪ f x) s ↔ p ∈ s ∨ ∃ x ∈ xs, p ∈ f x := by
  induction xs generalizing s with
  | nil => simp
  | cons x xs ih =>
    rw [List.foldl_cons, ih, NameSet.mem_union, List.exists_mem_cons_iff, or_assoc]

theorem mem_mapProperties_iff [Libraries] {fetch : Fetcher} {map : MapFile}
    {mapUrl cssFile p : String} :
    p ∈ mapProperties fetch map mapUrl cssFile ↔
      ∃ place source body, map.sources[place]? = some source ∧ IsMain cssFile source ∧
        HasBody fetch map mapUrl source place body ∧ p ∈ authoredProperties body := by
  rw [mapProperties, mem_foldl_union]
  constructor
  · rintro (none | ⟨⟨source, place⟩, listed, declared⟩)
    · exact absurd none (NameSet.not_mem_empty p)
    · by_cases main : IsMain cssFile source
      · obtain ⟨body, has, declared⟩ := (mem_sourceProperties_iff main).mp declared
        exact ⟨place, source, body, List.mk_mem_zipIdx_iff_getElem?.mp listed, main, has, declared⟩
      · rw [sourceProperties_of_not_isMain main] at declared
        exact absurd declared (NameSet.not_mem_empty p)
  · rintro ⟨place, source, body, listed, main, has, declared⟩
    refine .inr ⟨(source, place), List.mk_mem_zipIdx_iff_getElem?.mpr listed, ?_⟩
    exact (mem_sourceProperties_iff main).mpr ⟨body, has, declared⟩

/-- Two readings of maps that list the same sources tell the texts of main sources alike, each
in its map or at its address. Nothing is said of other sources and of addresses that no main
source is fetched from. -/
structure AgreeOnMain [Libraries] (mapUrl cssFile : String) (fetch fetch' : Fetcher)
    (map map' : MapFile) : Prop where
  sources : map.sources = map'.sources
  root : map.sourceRoot = map'.sourceRoot
  embedded : ∀ place source, map.sources[place]? = some source → IsMain cssFile source →
    map.embedded? place = map'.embedded? place
  served : ∀ place source reference url, map.sources[place]? = some source →
    IsMain cssFile source → map.embedded? place = none →
    IsReference source map.sourceRoot reference → LeadsTo mapUrl reference url →
    (fetch url).toOption = (fetch' url).toOption

section Agreement

variable [Libraries] {mapUrl cssFile : String} {fetch fetch' : Fetcher} {map map' : MapFile}

theorem AgreeOnMain.hasBody_iff {source body : String} {place : Nat}
    (agree : AgreeOnMain mapUrl cssFile fetch fetch' map map')
    (listed : map.sources[place]? = some source) (main : IsMain cssFile source) :
    HasBody fetch map mapUrl source place body ↔ HasBody fetch' map' mapUrl source place body := by
  simp only [SourceMap.hasBody_iff, sourceText_eq, ← agree.embedded place source listed main,
    ← agree.root]
  cases lone : map.embedded? place with
  | some text => rfl
  | none =>
    dsimp only
    cases resolved : resolveUrl mapUrl (sourceReference map.sourceRoot source) with
    | error e => rfl
    | ok url =>
      have alike := agree.served place source _ url listed main lone (isReference_iff.mpr rfl)
        (leadsTo_iff.mpr resolved)
      exact iff_of_eq (congrArg (body = ·.getD "") alike)

theorem AgreeOnMain.mapProperties_eq (agree : AgreeOnMain mapUrl cssFile fetch fetch' map map') :
    mapProperties fetch map mapUrl cssFile = mapProperties fetch' map' mapUrl cssFile := by
  ext p
  rw [mem_mapProperties_iff, mem_mapProperties_iff, ← agree.sources]
  refine exists₃_congr fun place source body => and_congr_right fun listed => ?_
  exact and_congr_right fun main => by rw [agree.hasBody_iff listed main]

end Agreement

/-- The properties of a file are those that its main sources declare, each with the text that
stands at its own place in the map or is served where it leads to from behind the source root. So
they are the same in any two readings that differ in other sources only. -/
theorem mapProperties_of_main_sources [Libraries] :
    (∀ fetch map mapUrl cssFile p, p ∈ mapProperties fetch map mapUrl cssFile ↔
      ∃ place source body, map.sources[place]? = some source ∧ IsMain cssFile source ∧
        HasBody fetch map mapUrl source place body ∧ p ∈ authoredProperties body) ∧
      ∀ fetch fetch' map map' mapUrl cssFile, AgreeOnMain mapUrl cssFile fetch fetch' map map' →
        mapProperties fetch map mapUrl cssFile = mapProperties fetch' map' mapUrl cssFile :=
  ⟨fun _ _ _ _ _ => mem_mapProperties_iff, fun _ _ _ _ _ _ agree => agree.mapProperties_eq⟩

/-! ## Two readings of a theme's map -/

/-- The map lists a partial, the theme itself and a dependency of the theme's name. -/
def themeMap (contents : Option (List (Option String))) : MapFile where
  sourceRoot := some "/src//"
  sources := ["_theme.scss", "scss/theme.SCSS?v=2", "node_modules/theme.scss"]
  sourcesContent := contents

/-- The theme's own text, and whatever is served for the partial and beside the source root. -/
def themeFetch (aside : String) : Fetcher :=
  .ofBodies <| .ofList [
    ("https://site.test/src/scss/theme.SCSS?v=2", "p \x7b\n  color: red;\n\x7d"),
    ("https://site.test/css/scss/theme.SCSS?v=2", aside),
    ("https://site.test/src/_theme.scss", aside)]

theorem isMain_themeMap {contents : Option (List (Option String))} {place : Nat} {source : String}
    (listed : (themeMap contents).sources[place]? = some source)
    (main : IsMain "theme.css" source) : place = 1 ∧ source = "scss/theme.SCSS?v=2" := by
  rw [isMain_iff] at main
  match place, listed with
  | 0, rfl => exact absurd main (by decide)
  | 1, rfl => exact ⟨rfl, rfl⟩
  | 2, rfl => exact absurd main (by decide)

def themeMapUrl : String := "https://site.test/css/theme.css.map"

/-- The theme is fetched from behind the source root. -/
theorem leadsTo_theme {reference url : String}
    (refers : IsReference "scss/theme.SCSS?v=2" (some "/src//") reference)
    (leads : LeadsTo themeMapUrl reference url) :
    url = "https://site.test/src/scss/theme.SCSS?v=2" := by
  rw [isReference_iff] at refers
  rw [leadsTo_iff, refers] at leads
  have resolved : resolveUrl themeMapUrl (sourceReference (some "/src//") "scss/theme.SCSS?v=2") =
      .ok "https://site.test/src/scss/theme.SCSS?v=2" := by
    decide +kernel
  cases resolved.symm.trans leads
  rfl

/-- The partial's text, the dependency's and the length of the list differ, and the theme's text
is fetched both times. -/
theorem mapProperties_of_main_sources_of_theme :
    let map := themeMap (some [some "  margin: 0", none, some "  padding: 0"])
    let map' := themeMap none
    AgreeOnMain themeMapUrl "theme.css" (themeFetch "") (themeFetch "  top: 0") map map' ∧
      HasBody (themeFetch "") map themeMapUrl "scss/theme.SCSS?v=2" 1
        "p \x7b\n  color: red;\n\x7d" ∧
      "color" ∈ mapProperties (themeFetch "") map themeMapUrl "theme.css" ∧
      mapProperties (themeFetch "") map themeMapUrl "theme.css" =
        mapProperties (themeFetch "  top: 0") map' themeMapUrl "theme.css" ∧
      mapProperties (themeFetch "  top: 0") map' themeMapUrl "theme.css" = .ofList ["color"] := by
  intro map map'
  have agree : AgreeOnMain themeMapUrl "theme.css" (themeFetch "") (themeFetch "  top: 0") map
      map' := by
    refine ⟨rfl, rfl, fun place source listed main => ?_, ?_⟩
    · obtain ⟨rfl, rfl⟩ := isMain_themeMap listed main
      rfl
    · intro place source reference url listed main _ refers leads
      obtain ⟨rfl, rfl⟩ := isMain_themeMap listed main
      cases leadsTo_theme refers leads
      decide +kernel
  have body : HasBody (themeFetch "") map themeMapUrl "scss/theme.SCSS?v=2" 1
      "p \x7b\n  color: red;\n\x7d" :=
    hasBody_iff.mpr (by decide +kernel)
  obtain ⟨counted, same⟩ := mapProperties_of_main_sources
  refine ⟨agree, body, (counted _ _ _ _ _).mpr ⟨1, _, _, rfl, ?_, body, ?_⟩,
    same _ _ _ _ _ _ agree, by decide +kernel⟩
  · exact isMain_iff.mpr (by decide)
  · decide +kernel

end AuthoredStyle.SourceMap
