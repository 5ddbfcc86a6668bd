import AuthoredStyle.Proofs.SourceMap.Provenance
import AuthoredStyle.Proofs.Text.Trim

/-!
# Names that files go by

The name of a file is the last segment of its address, less query and fragment. A sheet that
stands in the page itself is filed by its map: by the name that the map gives it, or else by
the map's address less the ending `.map`.

With the map at hand the ending is taken off the name, without it off the whole address, where
a query or a fragment may stand behind the ending. So it depends on the map being in reach by
which name such a sheet goes, but only for addresses of that kind.
-/

namespace AuthoredStyle.SourceMap

open Page (Stylesheet)

/-! ## The last segment -/

/-- A query or a fragment begins. -/
def endsPath (c : Char) : Bool := c = '?' || c = '#'

/-- The address is cut at both ends of the last segment of its path. -/
structure IsCutAt (address folder name tail : List Char) : Prop where
  whole : address = folder ++ name ++ tail
  folder_closed : folder = [] ∨ ∃ up, folder = up ++ ['/']
  name_lone : '/' ∉ name
  in_path : ∀ c ∈ folder ++ name, endsPath c = false
  tail_opened : tail = [] ∨ ∃ c rest, tail = c :: rest ∧ endsPath c = true

theorem fileName_eq (address : String) :
    fileName address =
      match Text.cutLast? '/' (address.toList.takeWhile (!endsPath ·)) with
      | some (_, name) => String.ofList name
      | none => String.ofList (address.toList.takeWhile (!endsPath ·)) := by
  have inPath : (fun c => c ≠ '?' && c ≠ '#') = (!endsPath ·) := by
    funext c
    simp [endsPath]
  rw [← inPath]
  rfl

/-- However an address is cut, its last segment is the file's name. -/
theorem IsCutAt.fileName_eq {address : String} {folder name tail : List Char}
    (cut : IsCutAt address.toList folder name tail) : fileName address = String.ofList name := by
  have kept : ∀ c ∈ folder ++ name, (!endsPath c) = true := fun c hc => by rw [cut.in_path c hc]; rfl
  have ended : tail.takeWhile (!endsPath ·) = [] := by
    rcases cut.tail_opened with rfl | ⟨c, rest, rfl, opens⟩
    · rfl
    · rw [List.takeWhile_cons_of_neg (by simp [opens])]
  have bare : address.toList.takeWhile (!endsPath ·) = folder ++ name := by
    rw [cut.whole, List.takeWhile_append_of_pos kept, ended, List.append_nil]
  rw [SourceMap.fileName_eq, bare]
  rcases cut.folder_closed with rfl | ⟨up, rfl⟩
  · rw [List.nil_append, Text.cutLast?_eq_none_iff.mpr cut.name_lone]
  · rw [List.append_assoc, List.singleton_append, Text.cutLast?_last up cut.name_lone]

theorem exists_isCutAt (address : String) :
    ∃ folder tail, IsCutAt address.toList folder (fileName address).toList tail := by
  let bare := address.toList.takeWhile (!endsPath ·)
  let tail := address.toList.dropWhile (!endsPath ·)
  have whole : address.toList = bare ++ tail := List.takeWhile_append_dropWhile.symm
  have in_path : ∀ c ∈ bare, endsPath c = false := fun c hc => by
    simpa using List.mem_takeWhile_imp hc
  have tail_opened : tail = [] ∨ ∃ c rest, tail = c :: rest ∧ endsPath c = true := by
    cases opened : tail with
    | nil => exact .inl rfl
    | cons c rest =>
      have first := List.head?_dropWhile_not (!endsPath ·) address.toList
      rw [show address.toList.dropWhile (!endsPath ·) = c :: rest from opened] at first
      exact .inr ⟨c, rest, rfl, by simpa using first⟩
  cases last : Text.cutLast? '/' bare with
  | none =>
    have cut : IsCutAt address.toList [] bare tail :=
      ⟨whole, .inl rfl, Text.cutLast?_eq_none_iff.mp last, in_path, tail_opened⟩
    exact ⟨[], tail, by rwa [cut.fileName_eq, String.toList_ofList]⟩
  | some parts =>
    obtain ⟨up, name⟩ := parts
    obtain ⟨split, lone⟩ := Text.eq_of_cutLast? last
    have joined : bare = up ++ ['/'] ++ name := by simpa using split
    have cut : IsCutAt address.toList (up ++ ['/']) name tail :=
      ⟨joined ▸ whole, .inr ⟨up, rfl⟩, lone, joined ▸ in_path, tail_opened⟩
    exact ⟨up ++ ['/'], tail, by rwa [cut.fileName_eq, String.toList_ofList]⟩

/-! ## The ending of a map's name -/

def mapEnding : List Char := ".map".toList

theorem dropMapEndingsReversed_suffix (s : List Char) : dropMapEndingsReversed s <:+ s := by
  fun_induction dropMapEndingsReversed s with
  | case1 s ih => exact ih.trans ⟨['p', 'a', 'm', '.'], rfl⟩
  | case2 => exact List.suffix_refl _

theorem dropMapEndingsReversed_eq_self_iff (s : List Char) :
    dropMapEndingsReversed s = s ↔ ¬ mapEnding.reverse <+: s := by
  fun_induction dropMapEndingsReversed s with
  | case1 s ih =>
    have shorter := (dropMapEndingsReversed_suffix s).length_le
    constructor
    · intro same
      have := congrArg List.length same
      simp only [List.length_cons] at this
      omega
    · intro other
      exact absurd ⟨s, rfl⟩ other
  | case2 s other =>
    refine iff_of_true rfl ?_
    rintro ⟨rest, rfl⟩
    exact other rest rfl

/-- Endings are taken off no farther than to a character that is in none. -/
theorem dropMapEndingsReversed_append {c : Char} (other : c ∉ mapEnding) (s before : List Char) :
    dropMapEndingsReversed (s ++ c :: before) = dropMapEndingsReversed s ++ c :: before := by
  fun_induction dropMapEndingsReversed s with
  | case1 s ih => exact ih
  | case2 s unended =>
    rw [dropMapEndingsReversed_eq_self_iff]
    intro ended
    have upTo : s ++ [c] <+: s ++ c :: before := ⟨before, by simp⟩
    rcases List.prefix_or_prefix_of_prefix ended upTo with inside | across
    · rcases List.prefix_concat_iff.mp inside with whole | ⟨rest, within⟩
      · have mem : c ∈ mapEnding.reverse := whole ▸ List.mem_concat_self
        exact other (List.mem_reverse.mp mem)
      · exact unended rest within.symm
    · exact other (by simpa using across.subset List.mem_concat_self)

theorem toList_dropMapEndings (s : String) :
    (dropMapEndings s).toList = (dropMapEndingsReversed s.toList.reverse).reverse := by
  rw [dropMapEndings, String.toList_ofList]

theorem dropMapEndings_prefix (s : String) : (dropMapEndings s).toList <+: s.toList := by
  rw [toList_dropMapEndings, ← List.reverse_suffix, List.reverse_reverse]
  exact dropMapEndingsReversed_suffix _

theorem dropMapEndings_eq_self_iff (s : String) :
    dropMapEndings s = s ↔ ¬ mapEnding <:+ s.toList := by
  rw [← String.toList_inj, toList_dropMapEndings, List.reverse_eq_iff,
    dropMapEndingsReversed_eq_self_iff, List.reverse_prefix]

theorem toList_dropMapEndings_append {c : Char} (other : c ∉ mapEnding) {s : String}
    {before after : List Char} (split : s.toList = before ++ c :: after) :
    (dropMapEndings s).toList = before ++ c :: (dropMapEndings (.ofList after)).toList := by
  rw [toList_dropMapEndings, toList_dropMapEndings, split, String.toList_ofList, List.reverse_append,
    List.reverse_cons, List.append_assoc, List.singleton_append, dropMapEndingsReversed_append other]
  simp

theorem not_mem_mapEnding_of_endsPath {c : Char} (ends : endsPath c = true) : c ∉ mapEnding := by
  intro inside
  have none : ∀ d ∈ mapEnding, endsPath d = false := by simp [mapEnding, endsPath]
  rw [none c inside] at ends
  cases ends

/-! ## Names taken from a map's address -/

/-- The address has a query or a fragment. -/
def HasTail (address : String) : Prop := ∃ c ∈ address.toList, endsPath c = true

instance (address : String) : Decidable (HasTail address) :=
  List.decidableBEx (endsPath · = true) address.toList

theorem IsCutAt.hasTail_iff {address : String} {folder name tail : List Char}
    (cut : IsCutAt address.toList folder name tail) : HasTail address ↔ tail ≠ [] := by
  constructor
  · rintro ⟨c, hc, ends⟩ rfl
    rw [cut.whole, List.append_nil] at hc
    rw [cut.in_path c hc] at ends
    cases ends
  · intro some
    rcases cut.tail_opened with none | ⟨c, rest, rfl, opens⟩
    · exact absurd none some
    · exact ⟨c, by simp [cut.whole], opens⟩

/-- Behind a tail nothing of the name is taken off. -/
theorem fileName_dropMapEndings_of_tail {address : String} (tailed : HasTail address) :
    fileName (dropMapEndings address) = fileName address := by
  obtain ⟨folder, tail, cut⟩ := exists_isCutAt address
  rcases cut.tail_opened with none | ⟨c, rest, rfl, opens⟩
  · exact absurd none (cut.hasTail_iff.mp tailed)
  · have left := toList_dropMapEndings_append (not_mem_mapEnding_of_endsPath opens) cut.whole
    have cut' : IsCutAt (dropMapEndings address).toList folder (fileName address).toList _ :=
      ⟨left, cut.folder_closed, cut.name_lone, cut.in_path, .inr ⟨c, _, rfl, opens⟩⟩
    rw [cut'.fileName_eq, String.ofList_toList]

/-- Without a tail the endings of the address are those of the name. -/
theorem fileName_dropMapEndings_of_no_tail {address : String} (bare : ¬ HasTail address) :
    fileName (dropMapEndings address) = dropMapEndings (fileName address) := by
  obtain ⟨folder, tail, cut⟩ := exists_isCutAt address
  have none : tail = [] := not_not.mp (mt cut.hasTail_iff.mpr bare)
  subst none
  have whole : address.toList = folder ++ (fileName address).toList := by
    rw [cut.whole, List.append_nil]
  have left : (dropMapEndings address).toList =
      folder ++ (dropMapEndings (fileName address)).toList ++ [] := by
    rw [List.append_nil]
    rcases cut.folder_closed with rfl | ⟨up, rfl⟩
    · rw [List.nil_append, ← String.toList_inj.mp whole]
    · rw [List.append_assoc, List.singleton_append] at whole ⊢
      rw [toList_dropMapEndings_append (by decide) whole, String.ofList_toList]
  have kept := dropMapEndings_prefix (fileName address)
  have cut' : IsCutAt (dropMapEndings address).toList folder
      (dropMapEndings (fileName address)).toList [] := by
    refine ⟨left, cut.folder_closed, fun slash => cut.name_lone (kept.subset slash), ?_, .inl rfl⟩
    intro c hc
    refine cut.in_path c ?_
    rcases List.mem_append.mp hc with hc | hc
    · exact List.mem_append_left _ hc
    · exact List.mem_append_right _ (kept.subset hc)
  rw [cut'.fileName_eq, String.ofList_toList]

/-- The two ways to take the ending off differ where a tail stands behind it. -/
theorem fileName_dropMapEndings_eq_iff (address : String) :
    dropMapEndings (fileName address) = fileName (dropMapEndings address) ↔
      ¬ (HasTail address ∧ mapEnding <:+ (fileName address).toList) := by
  by_cases tailed : HasTail address
  · rw [fileName_dropMapEndings_of_tail tailed, dropMapEndings_eq_self_iff]
    simp [tailed]
  · rw [fileName_dropMapEndings_of_no_tail tailed]
    simp [tailed]

/-! ## Sheets that stand in the page -/

section Contributions

variable [Libraries] {fetch : Fetcher} {sheet : Stylesheet}
  {css base reference url body : String} {map : MapFile}

theorem mapText_of_fetched (fetched : Text.hasLead dataLead url.toList = false) :
    mapText fetch url = fetch url := by
  rw [mapText, fetched]
  rfl

theorem contribution?_of_map (text : sheetText fetch sheet = .ok (css, base))
    (named : mapReference? css = some reference) (resolved : resolveUrl base reference = .ok url)
    (got : mapText fetch url = .ok body) (valid : MapFile.read? body = some map) :
    contribution? fetch sheet =
      some ⟨fileWithMap sheet url map, mapProperties fetch map url (fileWithMap sheet url map),
        Sheet.read css (fileWithMap sheet url map)⟩ := by
  simp [contribution?, text, named, resolved, loadMap_eq, got, valid]

/-- The map's address cannot be read, or what is there is no map. -/
def OutOfReach (fetch : Fetcher) (url : String) : Prop :=
  ∀ body, fetch url = .ok body → MapFile.read? body = none

theorem OutOfReach.mapLost (lost : OutOfReach fetch url)
    (text : sheetText fetch sheet = .ok (css, base)) (named : mapReference? css = some reference)
    (resolved : resolveUrl base reference = .ok url)
    (fetched : Text.hasLead dataLead url.toList = false) :
    MapLost fetch sheet css (fileWithoutMap sheet url) := by
  cases answer : fetch url with
  | error e =>
    exact .unfetched text named resolved ((mapText_of_fetched fetched).trans answer)
  | ok body =>
    exact .malformed text named resolved ((mapText_of_fetched fetched).trans answer)
      (lost body answer)

end Contributions

/-- A sheet in the page whose map gives it no name goes by one that is taken from the map's
address. With the map in reach and without it this is the same name, except at addresses with a
query or a fragment behind a name that ends in `.map`. -/
theorem inline_file_same_iff [Libraries] {fetch fetch' : Fetcher}
    {text base reference url body : String} {map : MapFile} (named : mapReference? text = some reference)
    (resolved : resolveUrl base reference = .ok url)
    (fetched : Text.hasLead dataLead url.toList = false) (served : fetch url = .ok body)
    (valid : MapFile.read? body = some map) (nameless : map.file = none)
    (lost : OutOfReach fetch' url) :
    ∃ c c', contribution? fetch (.inline text base) = some c ∧
      contribution? fetch' (.inline text base) = some c' ∧
      c.rules = Sheet.read text c.file ∧ c'.rules = Sheet.read text c'.file ∧
      (c.file = c'.file ↔ ¬ (HasTail url ∧ mapEnding <:+ (fileName url).toList)) := by
  have standing (f : Fetcher) : sheetText f (.inline text base) = .ok (text, base) := rfl
  have found := contribution?_of_map (standing fetch) named resolved
    ((mapText_of_fetched fetched).trans served) valid
  have missed := (lost.mapLost (standing fetch') named resolved fetched).contribution?_eq
  have withMap : fileWithMap (.inline text base) url map = dropMapEndings (fileName url) := by
    rw [fileWithMap, nameless]
    rfl
  rw [withMap] at found
  refine ⟨_, _, found, missed, ?_⟩
  dsimp only
  refine ⟨rfl, rfl, ?_⟩
  rw [fileWithoutMap, fileName_dropMapEndings_eq_iff]

/-! ## A map that is asked for by its version -/

def cardText (reference : String) : String :=
  ".card\x7bcolor:red\x7d /*# sourceMappingURL=" ++ reference ++ " */"

def namelessMap : String := "\x7b\"sources\":[]\x7d"

def withMaps : Fetcher :=
  .ofBodies (.ofList
    [("https://site.test/app.css.map", namelessMap), ("https://site.test/app.css.map?v=2", namelessMap)])

theorem outOfReach_nowhere (url : String) : OutOfReach (.ofBodies ∅) url := by
  intro body served
  cases served

/-- The plain address gives one name, the versioned one two. -/
theorem inline_file_same_iff_of_app :
    let plain := Stylesheet.inline (cardText "app.css.map") "https://site.test/"
    let versioned := Stylesheet.inline (cardText "app.css.map?v=2") "https://site.test/"
    (∃ c c', contribution? withMaps plain = some c ∧ contribution? (.ofBodies ∅) plain = some c' ∧
      c.file = c'.file) ∧
    ∃ c c', contribution? withMaps versioned = some c ∧
      contribution? (.ofBodies ∅) versioned = some c' ∧ c.file ≠ c'.file := by
  have valid : MapFile.read? namelessMap = some {} := by decide +kernel
  constructor
  · have named : mapReference? (cardText "app.css.map") = some "app.css.map" := by decide +kernel
    have resolved : resolveUrl "https://site.test/" "app.css.map" =
        .ok "https://site.test/app.css.map" := by decide +kernel
    have served : withMaps "https://site.test/app.css.map" = .ok namelessMap := by decide +kernel
    obtain ⟨c, c', found, missed, -, -, same⟩ :=
      inline_file_same_iff named resolved (by decide) served valid rfl (outOfReach_nowhere _)
    exact ⟨c, c', found, missed, same.mpr fun tailed => absurd tailed.1 (by decide)⟩
  · have named : mapReference? (cardText "app.css.map?v=2") = some "app.css.map?v=2" := by
      decide +kernel
    have resolved : resolveUrl "https://site.test/" "app.css.map?v=2" =
        .ok "https://site.test/app.css.map?v=2" := by decide +kernel
    have served : withMaps "https://site.test/app.css.map?v=2" = .ok namelessMap := by
      decide +kernel
    obtain ⟨c, c', found, missed, -, -, same⟩ :=
      inline_file_same_iff named resolved (by decide) served valid rfl (outOfReach_nowhere _)
    exact ⟨c, c', found, missed, fun agree => same.mp agree ⟨by decide, by decide +kernel⟩⟩

/-- Not every sheet goes by the same name with its map and without. -/
theorem versioned_map_renames :
    ¬ ∀ (fetch fetch' : Fetcher) (text base reference url body : String) (map : MapFile),
      mapReference? text = some reference → resolveUrl base reference = .ok url →
      Text.hasLead dataLead url.toList = false → fetch url = .ok body →
      MapFile.read? body = some map → map.file = none → OutOfReach fetch' url →
      (contribution? fetch (.inline text base)).map (·.file) =
        (contribution? fetch' (.inline text base)).map (·.file) := by
  intro always
  have same := always withMaps (.ofBodies ∅) (cardText "app.css.map?v=2") "https://site.test/"
    "app.css.map?v=2" "https://site.test/app.css.map?v=2" namelessMap {} (by decide +kernel)
    (by decide +kernel) (by decide) (by decide +kernel) (by decide +kernel) rfl
    (outOfReach_nowhere _)
  exact absurd same (by decide +kernel)

end AuthoredStyle.SourceMap
