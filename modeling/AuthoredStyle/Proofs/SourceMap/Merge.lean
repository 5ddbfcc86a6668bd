import AuthoredStyle.Libraries.BuiltIn
import AuthoredStyle.SourceMap.Resolution
import Mathlib.Data.List.Perm.Basic

/-!
# Merging what stylesheets contribute

Stylesheets are resolved one by one, and what they yield is merged in document
order: rules one behind the other, authored properties as sets. So the index does
not depend on the order of the sheets, and the rules do only by their own order.
A sheet that fails takes nothing from the others, whatever stage it fails at.

How a sheet is read and which properties its sources declare is not looked into.
-/

namespace AuthoredStyle.SourceMap

open Page (Stylesheet)
open Sheet (RuleSet)

namespace Index

@[ext] theorem ext {i j : Index} (files : ∀ f, i.file? f = j.file? f) (all : i.all = j.all) :
    i = j := by
  cases i
  cases j
  congr
  exact Dict.ext files

@[simp] theorem file?_empty (f : String) : (∅ : Index).file? f = none := rfl

@[simp] theorem all_empty : (∅ : Index).all = ∅ := rfl

@[simp] theorem all_insert (i : Index) (file : String) (authored : NameSet) :
    (i.insert file authored).all = i.all ∪ authored := rfl

theorem file?_insert (i : Index) (file : String) (authored : NameSet) (f : String) :
    (i.insert file authored).file? f =
      Option.merge (· ∪ ·) (i.file? f) (if f = file then some authored else none) := by
  have looked : (i.insert file authored).file? f =
      if f = file then some (((i.file? file).getD ∅) ∪ authored) else i.file? f :=
    Dict.get?_insert ..
  rw [looked]
  by_cases own : f = file
  · subst own
    cases i.file? f <;> simp [Option.merge]
  · cases i.file? f <;> simp [own, Option.merge]

theorem insert_comm (i : Index) (f g : String) (a b : NameSet) :
    (i.insert f a).insert g b = (i.insert g b).insert f a := by
  refine ext (fun h => ?_) ?_
  · simp only [file?_insert]
    ac_rfl
  · simp only [all_insert]
    ac_rfl

/-- What contributions make of an index. -/
def gather (i : Index) (cs : List Contribution) : Index :=
  cs.foldl (fun i c => i.insert c.file c.authored) i

theorem file?_gather (i : Index) (cs : List Contribution) (f : String) :
    (i.gather cs).file? f = Option.merge (· ∪ ·) (i.file? f) ((gather ∅ cs).file? f) := by
  induction cs generalizing i with
  | nil => simp [gather]
  | cons c cs ih =>
    rw [gather, gather, List.foldl_cons, List.foldl_cons, ← gather, ← gather, ih,
      ih (insert ∅ c.file c.authored), file?_insert, file?_insert, file?_empty,
      Option.merge_none_left]
    ac_rfl

theorem all_gather (i : Index) (cs : List Contribution) :
    (i.gather cs).all = i.all ∪ (gather ∅ cs).all := by
  induction cs generalizing i with
  | nil => simp [gather]
  | cons c cs ih =>
    rw [gather, gather, List.foldl_cons, List.foldl_cons, ← gather, ← gather, ih,
      ih (insert ∅ c.file c.authored), all_insert, all_insert, all_empty, NameSet.empty_union]
    ac_rfl

theorem gather_append (i : Index) (cs ds : List Contribution) :
    i.gather (cs ++ ds) = (i.gather cs).gather ds := List.foldl_append

theorem gather_perm (i : Index) {cs ds : List Contribution} (same : cs.Perm ds) :
    i.gather cs = i.gather ds :=
  same.foldl_eq' (fun c _ d _ j => insert_comm j c.file d.file c.authored d.authored) i

end Index

/-! ## Lists of stylesheets -/

def contributions [Libraries] (fetch : Fetcher) (sheets : List Stylesheet) : List Contribution :=
  sheets.filterMap (contribution? fetch)

theorem foldl_add (r : Resolution) (cs : List Contribution) :
    cs.foldl .add r = ⟨r.index.gather cs, r.rules ++ RuleSet.join (cs.map (·.rules))⟩ := by
  induction cs generalizing r with
  | nil => simp [Index.gather]
  | cons c cs ih =>
    rw [List.foldl_cons, ih, List.map_cons, RuleSet.join_cons, ← RuleSet.append_assoc]
    rfl

theorem resolve_eq [Libraries] (fetch : Fetcher) (sheets : List Stylesheet) :
    resolve fetch sheets = ⟨Index.gather ∅ (contributions fetch sheets),
      RuleSet.join ((contributions fetch sheets).map (·.rules))⟩ :=
  foldl_add ∅ (contributions fetch sheets)

/-- The rules of the second follow those of the first in each bucket, and what is
known of a file, or of any file, is what either of the two knows. -/
structure Resolution.IsMerge (a b whole : Resolution) : Prop where
  plain : whole.rules.plain = a.rules.plain ++ b.rules.plain
  pseudo : whole.rules.pseudo = a.rules.pseudo ++ b.rules.pseudo
  media : whole.rules.media = a.rules.media ++ b.rules.media
  hover : whole.rules.hover = a.rules.hover ++ b.rules.hover
  file : ∀ f, whole.index.file? f = Option.merge (· ∪ ·) (a.index.file? f) (b.index.file? f)
  all : whole.index.all = a.index.all ∪ b.index.all

theorem isMerge_resolve [Libraries] (fetch : Fetcher) (xs ys : List Stylesheet) :
    (resolve fetch xs).IsMerge (resolve fetch ys) (resolve fetch (xs ++ ys)) := by
  have rules : (resolve fetch (xs ++ ys)).rules =
      (resolve fetch xs).rules ++ (resolve fetch ys).rules := by
    simp only [resolve_eq, contributions, List.filterMap_append, List.map_append,
      RuleSet.join_append]
  have index : (resolve fetch (xs ++ ys)).index =
      (resolve fetch xs).index.gather (contributions fetch ys) := by
    simp only [resolve_eq, contributions, List.filterMap_append, Index.gather_append]
  constructor
  · rw [rules, RuleSet.plain_append]
  · rw [rules, RuleSet.pseudo_append]
  · rw [rules, RuleSet.media_append]
  · rw [rules, RuleSet.hover_append]
  · intro f
    rw [index, Index.file?_gather, resolve_eq fetch ys]
  · rw [index, Index.all_gather, resolve_eq fetch ys]

theorem resolve_perm [Libraries] (fetch : Fetcher) {xs ys : List Stylesheet}
    (same : xs.Perm ys) :
    (resolve fetch xs).index = (resolve fetch ys).index ∧
      (resolve fetch xs).rules.Perm (resolve fetch ys).rules := by
  have contributed : (contributions fetch xs).Perm (contributions fetch ys) :=
    same.filterMap (contribution? fetch)
  rw [resolve_eq, resolve_eq]
  exact ⟨Index.gather_perm ∅ contributed, RuleSet.join_perm (contributed.map _)⟩

/-! ## Sheets that fail -/

/-- The sheet cannot be fetched or names no map. -/
inductive Foreign (fetch : Fetcher) : Stylesheet → Prop where
  | unfetched {href : String} {e : Error} : fetch href = .error e → Foreign fetch (.external href)
  | unannotated {sheet : Stylesheet} {css base : String} :
      sheetText fetch sheet = .ok (css, base) → mapReference? css = none → Foreign fetch sheet

/-- The body of a map, decoded from its own address or fetched from there. -/
def mapText [Libraries] (fetch : Fetcher) (url : String) : Except Error String :=
  if Text.hasLead dataLead url.toList then decodeDataUrl url else fetch url

/-- The sheet has a text that names a map, but the map's address cannot be told, or
nothing can be had from there, or what is there is no map. The sheet is then filed
under a name that does without the map. -/
inductive MapLost [Libraries] (fetch : Fetcher) (sheet : Stylesheet) :
    (css file : String) → Prop where
  | unresolved {css base reference : String} {e : Error} :
      sheetText fetch sheet = .ok (css, base) → mapReference? css = some reference →
      resolveUrl base reference = .error e → MapLost fetch sheet css (fileWithoutMap sheet reference)
  | unfetched {css base reference url : String} {e : Error} :
      sheetText fetch sheet = .ok (css, base) → mapReference? css = some reference →
      resolveUrl base reference = .ok url → mapText fetch url = .error e →
      MapLost fetch sheet css (fileWithoutMap sheet url)
  | malformed {css base reference url body : String} :
      sheetText fetch sheet = .ok (css, base) → mapReference? css = some reference →
      resolveUrl base reference = .ok url → mapText fetch url = .ok body →
      MapFile.read? body = none → MapLost fetch sheet css (fileWithoutMap sheet url)

variable {fetch : Fetcher} {sheet : Stylesheet}

theorem Foreign.contribution?_eq [Libraries] (foreign : Foreign fetch sheet) :
    contribution? fetch sheet = none := by
  cases foreign with
  | unfetched failed => simp [contribution?, sheetText, failed, Except.map]
  | unannotated text bare => simp [contribution?, text, bare]

theorem loadMap_eq [Libraries] (fetch : Fetcher) (url : String) :
    loadMap fetch url =
      match mapText fetch url with
      | .error e => .error e
      | .ok body =>
        match MapFile.read? body with
        | some map => .ok map
        | none => .error .badSourceMap := by
  rw [loadMap, mapText]
  split
  · cases decodeDataUrl url <;> rfl
  · cases fetch url <;> rfl

theorem MapLost.contribution?_eq [Libraries] {css file : String}
    (lost : MapLost fetch sheet css file) :
    contribution? fetch sheet = some ⟨file, ∅, Sheet.read css file⟩ := by
  cases lost with
  | unresolved text named failed =>
    simp [contribution?, text, named, failed, contributionWithoutMap]
  | unfetched text named resolved failed =>
    simp [contribution?, text, named, resolved, loadMap_eq, failed, contributionWithoutMap]
  | malformed text named resolved got bad =>
    simp [contribution?, text, named, resolved, loadMap_eq, got, bad, contributionWithoutMap]

/-- What a sheet yields of which only the text can be used. -/
def rulesOnly (css file : String) : Resolution :=
  ⟨{ byFile := Dict.ofList [(file, ∅)] }, Sheet.read css file⟩

theorem file?_rulesOnly (css file f : String) :
    (rulesOnly css file).index.file? f = if f = file then some ∅ else none := by
  have looked : (rulesOnly css file).index.file? f = ((∅ : Dict NameSet).insert file ∅).get? f := rfl
  rw [looked, Dict.get?_insert, Dict.get?_empty]

theorem MapLost.resolve_singleton [Libraries] {css file : String}
    (lost : MapLost fetch sheet css file) :
    resolve fetch [sheet] = rulesOnly css file := by
  have alone : contributions fetch [sheet] = [⟨file, ∅, Sheet.read css file⟩] := by
    simp [contributions, lost.contribution?_eq]
  rw [resolve_eq, alone, List.map_singleton, RuleSet.join_cons, RuleSet.join_nil,
    RuleSet.append_empty]
  rfl

/-- Resolving is merging what single sheets yield: of two lists one behind the other,
it yields the merge; the order of the sheets only orders the rules; and a sheet that
fails yields nothing, or its rules alone if it names a map, whatever sheets it
stands between. -/
theorem resolve_merges_sheets [Libraries] (fetch : Fetcher) :
    (∀ xs ys, (resolve fetch xs).IsMerge (resolve fetch ys) (resolve fetch (xs ++ ys))) ∧
      (∀ xs ys : List Stylesheet, xs.Perm ys →
        (resolve fetch xs).index = (resolve fetch ys).index ∧
          (resolve fetch xs).rules.Perm (resolve fetch ys).rules) ∧
      (∀ xs sheet ys, Foreign fetch sheet →
        resolve fetch (xs ++ sheet :: ys) = resolve fetch (xs ++ ys)) ∧
      ∀ xs sheet ys css file, MapLost fetch sheet css file →
        ∃ front, (resolve fetch xs).IsMerge (rulesOnly css file) front ∧
          front.IsMerge (resolve fetch ys) (resolve fetch (xs ++ sheet :: ys)) := by
  refine ⟨isMerge_resolve fetch, fun xs ys => resolve_perm fetch, ?_, ?_⟩
  · intro xs sheet ys foreign
    simp only [resolve_eq, contributions, List.filterMap_append, List.filterMap_cons,
      foreign.contribution?_eq]
  · intro xs sheet ys css file lost
    refine ⟨resolve fetch (xs ++ [sheet]), ?_, ?_⟩
    · rw [← lost.resolve_singleton]
      exact isMerge_resolve fetch xs [sheet]
    · have whole := isMerge_resolve fetch (xs ++ [sheet]) ys
      rwa [List.append_assoc, List.singleton_append] at whole

/-! ## Good and bad sheets together -/

/-- A card that has a map, a sheet without one, and two whose maps cannot be had: nothing is
there, or what is there is cut off. -/
def mixedFetch : Fetcher := .ofBodies (.ofList
  [("https://site.test/card.css", ".card\x7btop:0\x7d/*# sourceMappingURL=card.css.map */"),
   ("https://site.test/card.css.map",
    "\x7b\"sources\":[\"card.scss\"],\"sourcesContent\":[\"  top: 0\"]\x7d"),
   ("https://site.test/plain.css", ".plain\x7bcolor:red\x7d"),
   ("https://site.test/note.css", ".note\x7btop:1px\x7d/*# sourceMappingURL=note.css.map */"),
   ("https://site.test/tag.css", ".tag\x7btop:2px\x7d/*# sourceMappingURL=tag.css.map */"),
   ("https://site.test/tag.css.map", "\x7b\"sources\"")])

def cardSheet : Stylesheet := .external "https://site.test/card.css"

def lostText : String := ".a\x7bcolor:red\x7d/*# sourceMappingURL=a.css.map */"

/-- Sheets with their texts and the names that they are filed by, of which no map can be had. -/
def lostSheets : List (Stylesheet × String × String) :=
  [(.inline lostText "", lostText, "a.css"),
   (.external "https://site.test/note.css",
    ".note\x7btop:1px\x7d/*# sourceMappingURL=note.css.map */", "note.css"),
   (.external "https://site.test/tag.css",
    ".tag\x7btop:2px\x7d/*# sourceMappingURL=tag.css.map */", "tag.css")]

theorem mapLost_lostSheets : ∀ e ∈ lostSheets, MapLost mixedFetch e.1 e.2.1 e.2.2 := by
  simp only [lostSheets, List.forall_mem_cons, List.not_mem_nil, false_implies, implies_true,
    and_true]
  refine ⟨?unresolved, ?unfetched, ?malformed⟩
  case unresolved =>
    have failed : resolveUrl "" "a.css.map" = .error (.badUrl "" .noBase) := by decide +kernel
    have file : fileWithoutMap (.inline lostText "") "a.css.map" = "a.css" := by decide +kernel
    rw [← file]
    exact .unresolved rfl (by decide +kernel) failed
  case unfetched =>
    have text : sheetText mixedFetch (.external "https://site.test/note.css") =
        .ok (".note\x7btop:1px\x7d/*# sourceMappingURL=note.css.map */",
          "https://site.test/note.css") := by decide +kernel
    have resolved : resolveUrl "https://site.test/note.css" "note.css.map" =
        .ok "https://site.test/note.css.map" := by decide +kernel
    have failed : mapText mixedFetch "https://site.test/note.css.map" =
        .error (.fetch "https://site.test/note.css.map" .notServed) := by decide +kernel
    exact .unfetched text (by decide +kernel) resolved failed
  case malformed =>
    have text : sheetText mixedFetch (.external "https://site.test/tag.css") =
        .ok (".tag\x7btop:2px\x7d/*# sourceMappingURL=tag.css.map */",
          "https://site.test/tag.css") := by decide +kernel
    have resolved : resolveUrl "https://site.test/tag.css" "tag.css.map" =
        .ok "https://site.test/tag.css.map" := by decide +kernel
    have body : mapText mixedFetch "https://site.test/tag.css.map" = .ok "\x7b\"sources\"" := by
      decide +kernel
    exact .malformed text (by decide +kernel) resolved body (by decide +kernel)

/-- Each of them beside the card, in both orders, and the card behind sheets that yield nothing. -/
theorem resolve_merges_sheets_of_mixed :
    (∀ sheet ∈ [Stylesheet.external "https://site.test/gone.css",
        .external "https://site.test/plain.css"], Foreign mixedFetch sheet ∧
      resolve mixedFetch [sheet, cardSheet] = resolve mixedFetch [cardSheet]) ∧
      ∀ e ∈ lostSheets, MapLost mixedFetch e.1 e.2.1 e.2.2 ∧
        let whole := resolve mixedFetch [cardSheet, e.1]
        whole.index.all = .ofList ["top"] ∧
          whole.index.file? "card.css" = some (.ofList ["top"]) ∧
          whole.index.file? e.2.2 = some ∅ ∧
          whole.rules.plain =
            ⟨".card", .ofList ["top"], "card.css"⟩ :: (Sheet.read e.2.1 e.2.2).plain ∧
          (resolve mixedFetch [e.1, cardSheet]).index = whole.index := by
  obtain ⟨merged, permuted, passed, kept⟩ := resolve_merges_sheets mixedFetch
  have foreign : ∀ sheet ∈ [Stylesheet.external "https://site.test/gone.css",
      .external "https://site.test/plain.css"], Foreign mixedFetch sheet := by
    have gone : mixedFetch "https://site.test/gone.css" =
        .error (.fetch "https://site.test/gone.css" .notServed) := by decide +kernel
    have text : sheetText mixedFetch (.external "https://site.test/plain.css") =
        .ok (".plain\x7bcolor:red\x7d", "https://site.test/plain.css") := by decide +kernel
    simp only [List.forall_mem_cons, List.not_mem_nil, false_implies, implies_true, and_true]
    exact ⟨.unfetched gone, .unannotated text (by decide +kernel)⟩
  have card : resolve mixedFetch [cardSheet] =
      ⟨(∅ : Index).insert "card.css" (.ofList ["top"]),
        ⟨[⟨".card", .ofList ["top"], "card.css"⟩], [], [], []⟩⟩ := by
    decide +kernel
  have others : ∀ e ∈ lostSheets, e.2.2 ≠ "card.css" := by decide
  refine ⟨fun sheet hs => ⟨foreign sheet hs, passed [] sheet [cardSheet] (foreign sheet hs)⟩, ?_⟩
  intro e he
  have lost := mapLost_lostSheets e he
  have other := others e he
  obtain ⟨front, first, second⟩ := kept [cardSheet] e.1 [] e.2.1 e.2.2 lost
  have nothing : resolve mixedFetch [] = ∅ := rfl
  have swapped := permuted [e.1, cardSheet] [cardSheet, e.1] (.swap cardSheet e.1 [])
  rw [nothing] at second
  rw [card] at first
  refine ⟨lost, ?_, ?_, ?_, ?_, swapped.1⟩
  · refine second.all.trans ?_
    rw [first.all]
    change ((∅ ∪ NameSet.ofList ["top"]) ∪ ∅) ∪ ∅ = NameSet.ofList ["top"]
    decide +kernel
  · refine (second.file _).trans ?_
    rw [first.file, file?_rulesOnly, if_neg other.symm]
    rfl
  · refine (second.file _).trans ?_
    rw [first.file, file?_rulesOnly, if_pos rfl, Index.file?_insert, if_neg other]
    rfl
  · refine second.plain.trans ?_
    rw [first.plain]
    exact List.append_nil _

end AuthoredStyle.SourceMap
