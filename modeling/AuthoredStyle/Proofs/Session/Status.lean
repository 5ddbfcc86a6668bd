import AuthoredStyle.Proofs.Session.History
import AuthoredStyle.Proofs.SourceMap.Provenance

/-!
# What a session reports of its index

An index keeps the properties of each file and, beside them, those of any file. Whatever is
inserted, in whatever order, the second are the union of the first. Of the index in force a
session reports counts and lists, and the counts are those of the lists, each list increases,
and the whole is the union of its parts. The answer to a load tells the same as the report that
may be asked for next.
-/

namespace AuthoredStyle

open SourceMap (Fetcher Index Resolution)

/-! ## The union beside its parts -/

namespace SourceMap.Index

/-- The index has a property of any file exactly if it has it of some file. -/
def Consistent (i : Index) : Prop := ∀ p, p ∈ i.all ↔ ∃ file, i.Authors file p

/-- What insertions make of an index, one after the other. -/
def inserted (i : Index) (calls : List (String × NameSet)) : Index :=
  calls.foldl (fun i call => i.insert call.1 call.2) i

theorem authors_insert_iff (i : Index) (file : String) (authored : NameSet) (f p : String) :
    (i.insert file authored).Authors f p ↔ i.Authors f p ∨ file = f ∧ p ∈ authored := by
  have merged : (i.insert file authored).file? f =
      Option.merge (· ∪ ·) (i.file? f) ((insert ∅ file authored).file? f) := by
    rw [file?_insert, file?_insert, file?_empty, Option.merge_none_left]
  have alone : (insert ∅ file authored).Authors f p ↔ file = f ∧ p ∈ authored := by
    rw [Authors, file?_insert, file?_empty, Option.merge_none_left]
    by_cases own : f = file
    · simp [own]
    · simp [own, Ne.symm own]
  rw [authors_of_merge merged, alone]

theorem consistent_empty : Consistent ∅ := by
  intro p
  simp [Authors]

theorem Consistent.insert {i : Index} (ok : i.Consistent) (file : String) (authored : NameSet) :
    (i.insert file authored).Consistent := by
  intro p
  rw [all_insert, NameSet.mem_union, ok p]
  simp only [authors_insert_iff, exists_or, exists_eq_left']

theorem Consistent.inserted {i : Index} (ok : i.Consistent) (calls : List (String × NameSet)) :
    (i.inserted calls).Consistent := by
  induction calls generalizing i with
  | nil => exact ok
  | cons call calls ih => exact ih (ok.insert call.1 call.2)

/-- The index has of a file what was inserted for it. -/
theorem authors_inserted_iff (i : Index) (calls : List (String × NameSet)) (file p : String) :
    (i.inserted calls).Authors file p ↔
      i.Authors file p ∨ ∃ call ∈ calls, call.1 = file ∧ p ∈ call.2 := by
  induction calls generalizing i with
  | nil => simp [Index.inserted]
  | cons call calls ih =>
    rw [Index.inserted, List.foldl_cons, ← Index.inserted, ih, authors_insert_iff,
      List.exists_mem_cons_iff, or_assoc]

theorem gather_eq_inserted (i : Index) (cs : List Contribution) :
    i.gather cs = i.inserted (cs.map fun c => (c.file, c.authored)) := by
  rw [gather, Index.inserted, List.foldl_map]

end SourceMap.Index

theorem SourceMap.consistent_resolve [Libraries] (fetch : Fetcher) (sheets : List Page.Stylesheet) :
    (resolve fetch sheets).index.Consistent := by
  rw [resolve_eq, Index.gather_eq_inserted]
  exact Index.consistent_empty.inserted _

/-! ## Reports -/

structure FileReport where
  file : String
  count : Nat
  properties : List String
  deriving DecidableEq

/-- What a host is told of an index. -/
structure IndexReport where
  hasSourceMap : Bool
  propertyCount : Nat
  properties : List String
  byFile : List FileReport
  deriving DecidableEq

def SourceMap.Index.report (i : Index) : IndexReport where
  hasSourceMap := i.hasSourceMap
  propertyCount := i.propertyCount
  properties := i.all.toList
  byFile := i.byFile.entries.map fun e => ⟨e.1, e.2.size, e.2.toList⟩

namespace IndexReport

/-- Counts are those of the lists, lists increase, and the whole is the union of its parts. -/
structure Consistent (r : IndexReport) : Prop where
  counted : r.propertyCount = r.properties.length
  increasing : r.properties.Pairwise (· < ·)
  union : ∀ p, p ∈ r.properties ↔ ∃ f ∈ r.byFile, p ∈ f.properties
  file_counted : ∀ f ∈ r.byFile, f.count = f.properties.length
  file_increasing : ∀ f ∈ r.byFile, f.properties.Pairwise (· < ·)
  files_increasing : (r.byFile.map (·.file)).Pairwise (· < ·)
  hasSourceMap_iff : r.hasSourceMap = true ↔ r.byFile ≠ []

/-- The answer to a status request. -/
def toJson (r : IndexReport) : Json :=
  .object [
    ("hasSourceMap", .bool r.hasSourceMap),
    ("propertyCount", .int r.propertyCount),
    ("properties", .array (r.properties.map .text)),
    ("byFile", .object (r.byFile.map fun f =>
      (f.file, .object [("count", .int f.count), ("properties", .array (f.properties.map .text))])))]

/-- The answer to a load. -/
def loadedJson (r : IndexReport) : Json :=
  .object [
    ("status", .text "ok"),
    ("propertyCount", .int r.propertyCount),
    ("properties", .array (r.properties.map .text))]

end IndexReport

theorem SourceMap.Index.consistent_report {i : Index} (ok : i.Consistent) :
    i.report.Consistent where
  counted := rfl
  increasing := i.all.increasing
  union := by
    intro p
    have listed (file : String) (names : NameSet) :
        i.file? file = some names ↔ (file, names) ∈ i.byFile.entries := Dict.get?_eq_some_iff
    rw [report, ← NameSet.mem_def, ok p]
    constructor
    · rintro ⟨file, names, known, here⟩
      exact ⟨_, List.mem_map_of_mem ((listed file names).mp known), here⟩
    · rintro ⟨f, mem, here⟩
      obtain ⟨e, held, rfl⟩ := List.mem_map.mp mem
      exact ⟨e.1, e.2, (listed e.1 e.2).mpr held, here⟩
  file_counted := by
    intro f mem
    obtain ⟨e, -, rfl⟩ := List.mem_map.mp mem
    rfl
  file_increasing := by
    intro f mem
    obtain ⟨e, -, rfl⟩ := List.mem_map.mp mem
    exact e.2.increasing
  files_increasing := by
    rw [report, List.map_map]
    exact List.pairwise_map.mpr i.byFile.increasing
  hasSourceMap_iff := by
    simp [report, hasSourceMap, Dict.isEmpty]

theorem Response.toJson_sourceMapStatus (i : Index) :
    (sourceMapStatus i).toJson = i.report.toJson := by
  rw [toJson, IndexReport.toJson, SourceMap.Index.report, List.map_map]
  rfl

theorem Response.toJson_loaded (i : Index) : (loaded i).toJson = i.report.loadedJson := rfl

/-! ## Requests -/

namespace Session

section Requests

variable [Libraries] {s : Session} {fetch : Fetcher} {text : String}

theorem requestText_status (status : Command.read text = .ok .sourceMapStatus) :
    (s.requestText fetch text).2 = Libraries.jsonText s.rules.index.report.toJson := by
  simp only [requestText, request, status, handle, Response.toJson_sourceMapStatus]

theorem requestText_load (load : Command.read text = .ok .loadSourceMaps) :
    let loaded := (s.requestText fetch text).1
    loaded = s.load fetch ∧
      (s.requestText fetch text).2 = Libraries.jsonText loaded.rules.index.report.loadedJson := by
  simp only [requestText, request, load, handle, Response.toJson_loaded, and_self]

/-- What holds of nothing and of all that is ever loaded holds of the rules in force. -/
theorem Hosted.rules_run {P : Resolution → Prop} (empty : P ∅)
    (loaded : ∀ fetch sheets, P (SourceMap.resolve fetch sheets)) (snapshot : Page.Snapshot)
    (options : BuildOptions) (events : List Event) :
    P ((attach snapshot options).run events).session.rules := by
  rw [session_run]
  dsimp only
  cases found : events.reverse.findSome? (·.sets? (attach snapshot options).session.page.stylesheets) with
  | none => exact empty
  | some r =>
    obtain ⟨e, -, sets⟩ := List.exists_of_findSome?_eq_some found
    rcases Event.sets?_eq_some sets with ⟨fetch, -, rfl⟩ | ⟨-, rfl⟩
    · exact loaded fetch _
    · exact empty

theorem InForce.rules_run {events : List Event} {fetch : Fetcher} (current : InForce events fetch)
    (snapshot : Page.Snapshot) (options : BuildOptions) :
    ((Hosted.attach snapshot options).run events).session.rules =
      SourceMap.resolve fetch snapshot.stylesheets := by
  rw [Hosted.session_run, current.findSome?, Option.getD_some]
  rfl

/-- Insertions keep the union of what they put into the files. In every state that a session can
come to its index is of that kind, a status request is answered by a report of it in which all
counts and lists agree, and the answer to a load says the same as a status request behind it. -/
theorem status_reports_union :
    (∀ calls : List (String × NameSet), (Index.inserted ∅ calls).Consistent ∧
        ∀ file p, (Index.inserted ∅ calls).Authors file p ↔
          ∃ call ∈ calls, call.1 = file ∧ p ∈ call.2) ∧
      ∀ snapshot options events,
        let host := (Hosted.attach snapshot options).run events
        let index := host.session.rules.index
        index.Consistent ∧ index.report.Consistent ∧
          (∀ fetch text, Command.read text = .ok .sourceMapStatus →
            (host.session.requestText fetch text).2 = Libraries.jsonText index.report.toJson) ∧
          ∀ fetch fetch' text text', Command.read text = .ok .loadSourceMaps →
            Command.read text' = .ok .sourceMapStatus →
            ∃ report : IndexReport, report.Consistent ∧
              (host.session.requestText fetch text).2 = Libraries.jsonText report.loadedJson ∧
              ((host.session.requestText fetch text).1.requestText fetch' text').2 =
                Libraries.jsonText report.toJson := by
  constructor
  · intro calls
    refine ⟨Index.consistent_empty.inserted calls, fun file p => ?_⟩
    rw [Index.authors_inserted_iff]
    exact or_iff_right (by simp [Index.Authors])
  · intro snapshot options events host index
    have consistent : index.Consistent :=
      Hosted.rules_run (P := fun r => r.index.Consistent) Index.consistent_empty
        SourceMap.consistent_resolve snapshot options events
    refine ⟨consistent, Index.consistent_report consistent, fun _ _ => requestText_status, ?_⟩
    intro fetch fetch' text text' load status
    have ⟨loaded, answer⟩ : (host.session.requestText fetch text).1 = host.session.load fetch ∧ _ :=
      requestText_load load
    refine ⟨_, ?_, answer, requestText_status status⟩
    rw [loaded]
    exact Index.consistent_report (SourceMap.consistent_resolve fetch _)

end Requests

/-! ## A page with two sheets of one name -/

/-- Both cards have a map, and the note's is nowhere. -/
def cardsPage : Page.Snapshot where
  document := { tag := "p" }
  stylesheets := [.external "https://site.test/a/card.css", .external "https://site.test/b/card.css",
    .external "https://site.test/note.css"]

def cardsFetch : Fetcher := .ofBodies (.ofList
  [("https://site.test/a/card.css", "/*# sourceMappingURL=card.css.map */"),
   ("https://site.test/a/card.css.map",
    "\x7b\"sources\":[\"card.scss\"],\"sourcesContent\":[\"  top: 0\"]\x7d"),
   ("https://site.test/b/card.css", "/*# sourceMappingURL=card.css.map */"),
   ("https://site.test/b/card.css.map",
    "\x7b\"sources\":[\"card.scss\"],\"sourcesContent\":[\"  color: red\\n  top: 0\"]\x7d"),
   ("https://site.test/note.css", "/*# sourceMappingURL=note.css.map */")])

def asking : String := "\x7b\"action\":\"getSourceMapStatus\"\x7d"

def cardsReport : IndexReport where
  hasSourceMap := true
  propertyCount := 2
  properties := ["color", "top"]
  byFile := [⟨"card.css", 2, ["color", "top"]⟩, ⟨"note.css", 0, []⟩]

def cardsStatus : String :=
  "\x7b\"hasSourceMap\":true,\"propertyCount\":2,\"properties\":[\"color\",\"top\"],\"byFile\":" ++
    "\x7b\"card.css\":\x7b\"count\":2,\"properties\":[\"color\",\"top\"]\x7d," ++
    "\"note.css\":\x7b\"count\":0,\"properties\":[]\x7d\x7d\x7d"

def cardsLoaded : String :=
  "\x7b\"status\":\"ok\",\"propertyCount\":2,\"properties\":[\"color\",\"top\"]\x7d"

/-- One file has the properties of two sheets, and one has none. -/
theorem status_reports_union_of_cards :
    let host := (Hosted.attach cardsPage {}).run
      [.request cardsFetch loading, .request withoutNetwork cutOff]
    let index := host.session.rules.index
    let loaded := host.session.requestText cardsFetch loading
    index.report = cardsReport ∧
      (host.session.requestText withoutNetwork asking).2 = cardsStatus ∧
      (∃ report : IndexReport, report.Consistent ∧ loaded.2 = Libraries.jsonText report.loadedJson ∧
        (loaded.1.requestText withoutNetwork asking).2 = Libraries.jsonText report.toJson) ∧
      loaded.2 = cardsLoaded ∧ (loaded.1.requestText withoutNetwork asking).2 = cardsStatus := by
  intro host index loaded
  have load : Command.read loading = .ok .loadSourceMaps := by decide +kernel
  have status : Command.read asking = .ok .sourceMapStatus := by decide +kernel
  have noRequest : Command.read cutOff = .error .badJson := by decide +kernel
  have current : InForce [.request cardsFetch loading, .request withoutNetwork cutOff] cardsFetch := by
    refine ⟨[], _, [.request withoutNetwork cutOff], rfl, ⟨loading, rfl, load⟩, fun e he => ?_⟩
    rw [List.mem_singleton.mp he]
    have quiet : (Event.request withoutNetwork cutOff).sets? [] = none := by
      simp only [Event.sets?, noRequest]
    exact Event.sets?_eq_none_iff.mp quiet
  have report : (SourceMap.resolve cardsFetch cardsPage.stylesheets).index.report = cardsReport := by
    decide +kernel
  have written : Libraries.jsonText cardsReport.toJson = cardsStatus ∧
      Libraries.jsonText cardsReport.loadedJson = cardsLoaded := by
    decide +kernel
  have inForce : host.session.rules.index.report = cardsReport := by
    rw [current.rules_run, report]
  obtain ⟨reloaded, answer⟩ := @requestText_load _ host.session cardsFetch loading load
  have again : loaded.1.rules.index.report = cardsReport := by
    rw [reloaded, Session.load, Hosted.page_run]
    exact report
  obtain ⟨-, -, reported, answered⟩ := status_reports_union.2 cardsPage {}
    [.request cardsFetch loading, .request withoutNetwork cutOff]
  refine ⟨inForce, ?_, answered cardsFetch withoutNetwork loading asking load status, ?_, ?_⟩
  · rw [reported withoutNetwork asking status, inForce, written.1]
  · rw [answer, again, written.2]
  · rw [requestText_status status, again, written.1]

end Session

end AuthoredStyle
