import AuthoredStyle.Proofs.SourceMap.MainSources
import AuthoredStyle.SourceMap.Reach

/-!
# What a load depends on

A load depends on the answers to what it asks for and on nothing else. What a round asks for is
settled by the answers to the rounds before it, so whoever brings what is asked for, round after
round, has after three rounds all that the load depends on, without having known of any of it
before.
-/

namespace AuthoredStyle.SourceMap

variable [Libraries]

/-- Two fetchers answer alike all that a sheet asks for in the first rounds. -/
def Agree (f g : Fetcher) (sheet : Page.Stylesheet) (rounds : Nat) : Prop :=
  ∀ round < rounds, ∀ url ∈ askedIn g sheet round, f url = g url

section Agreement

variable {f g : Fetcher} {sheet : Page.Stylesheet}

theorem Agree.mono {m n : Nat} (agree : Agree f g sheet n) (le : m ≤ n) : Agree f g sheet m :=
  fun round early => agree round (by omega)

theorem Agree.sheetText_eq (agree : Agree f g sheet 1) : sheetText f sheet = sheetText g sheet := by
  cases sheet with
  | inline text base => rfl
  | external href =>
    have own := agree 0 (by omega) href (List.mem_singleton_self href)
    rw [sheetText, sheetText, own]

theorem Agree.mapUrl?_eq (agree : Agree f g sheet 1) : mapUrl? f sheet = mapUrl? g sheet := by
  rw [mapUrl?, mapUrl?, agree.sheetText_eq]

theorem Agree.loadMap_eq (agree : Agree f g sheet 2) {mapUrl : String}
    (leads : mapUrl? g sheet = some mapUrl) : loadMap f mapUrl = loadMap g mapUrl := by
  have asked : mapUrl ∈ askedIn g sheet 1 := by
    rw [askedIn, leads]
    exact List.mem_singleton_self mapUrl
  rw [loadMap, loadMap, agree 1 (by omega) mapUrl asked]

/-- What earlier rounds ask for settles what a round asks for. -/
theorem Agree.askedIn_eq {round : Nat} (agree : Agree f g sheet round) :
    askedIn f sheet round = askedIn g sheet round := by
  match round with
  | 0 => rfl
  | 1 => rw [askedIn, askedIn, agree.mapUrl?_eq]
  | 2 =>
    rw [askedIn, askedIn, (agree.mono (by omega)).mapUrl?_eq]
    cases leads : mapUrl? g sheet with
    | none => rfl
    | some mapUrl =>
      dsimp only
      rw [agree.loadMap_eq leads]
  | _ + 3 => rfl

theorem agree_three_iff : Agree f g sheet 3 ↔ ∀ url ∈ asked g sheet, f url = g url := by
  simp only [Agree, asked, List.mem_flatMap, List.mem_range]
  exact ⟨fun agree url ⟨round, early, here⟩ => agree round early url here,
    fun agree round early url here => agree url ⟨round, early, here⟩⟩

end Agreement

/-- The step of a round: a fetcher that knows all that could be asked for so far, and has forgotten
nothing, knows the answers to one round more. -/
theorem Agree.succ {f f' g : Fetcher} {sheet : Page.Stylesheet} {rounds : Nat}
    (agree : Agree f g sheet rounds) (kept : ∀ url, f url = g url → f' url = g url)
    (brought : ∀ url ∈ asked f sheet, f' url = g url) : Agree f' g sheet (rounds + 1) := by
  intro round early url here
  rcases Nat.lt_succ_iff_lt_or_eq.mp early with earlier | rfl
  · exact kept url (agree round earlier url here)
  · by_cases three : round < 3
    · rw [← agree.askedIn_eq] at here
      exact brought url (List.mem_flatMap.mpr ⟨round, List.mem_range.mpr three, here⟩)
    · match round with
      | _ + 3 => cases here

/-! ## All that is asked for -/

theorem mem_sourcesAsked {map : MapFile} {mapUrl cssFile source url : String} {place : Nat}
    (listed : map.sources[place]? = some source) (main : IsMain cssFile source)
    (lone : map.embedded? place = none)
    (leads : resolveUrl mapUrl (sourceReference map.sourceRoot source) = .ok url) :
    url ∈ sourcesAsked map mapUrl cssFile := by
  refine List.mem_filterMap.mpr ⟨(source, place), List.mk_mem_zipIdx_iff_getElem?.mpr listed, ?_⟩
  obtain ⟨own, named⟩ := isMain_iff.mp main
  simp only [embedded?_eq, own, named, lone, leads]
  rfl

theorem mapProperties_congr {f g : Fetcher} {map : MapFile} {mapUrl cssFile : String}
    (agree : ∀ url ∈ sourcesAsked map mapUrl cssFile, f url = g url) :
    mapProperties f map mapUrl cssFile = mapProperties g map mapUrl cssFile := by
  refine AgreeOnMain.mapProperties_eq ⟨rfl, rfl, fun _ _ _ _ => rfl, ?_⟩
  intro place source reference url listed main lone refers leads
  obtain rfl := isReference_iff.mp refers
  rw [agree url (mem_sourcesAsked listed main lone (leadsTo_iff.mp leads))]

section Loads

variable {f g : Fetcher}

/-- The answers to what a sheet asks for settle what it contributes. -/
theorem Agree.contribution?_eq {sheet : Page.Stylesheet} (agree : Agree f g sheet 3) :
    contribution? f sheet = contribution? g sheet := by
  rw [contribution?, contribution?, (agree.mono (by omega)).sheetText_eq]
  cases text : sheetText g sheet with
  | error e => rfl
  | ok told =>
    obtain ⟨css, base⟩ := told
    dsimp only
    cases annotated : mapReference? css with
    | none => rfl
    | some reference =>
      simp only [Option.map_some]
      cases resolved : resolveUrl base reference with
      | error e => rfl
      | ok mapUrl =>
        have leads : mapUrl? g sheet = some mapUrl := by
          rw [mapUrl?, text]
          simp [annotated, resolved, Except.toOption]
        dsimp only
        rw [(agree.mono (by omega)).loadMap_eq leads]
        cases loaded : loadMap g mapUrl with
        | error e => rfl
        | ok map =>
          have sources : askedIn g sheet 2 =
              sourcesAsked map mapUrl (fileWithMap sheet mapUrl map) := by
            rw [askedIn, leads]
            simp only [loaded]
          have alike := agree 2 (by omega)
          rw [sources] at alike
          dsimp only
          rw [mapProperties_congr alike]

/-- A load comes out alike for any two fetchers that answer alike what it asks of one of them. -/
theorem resolve_congr {sheets : List Page.Stylesheet}
    (agree : ∀ sheet ∈ sheets, ∀ url ∈ asked g sheet, f url = g url) :
    resolve f sheets = resolve g sheets := by
  have alike : ∀ sheet ∈ sheets, contribution? f sheet = contribution? g sheet := fun sheet here =>
    (agree_three_iff.mpr (agree sheet here)).contribution?_eq
  rw [resolve, resolve, List.filterMap_congr alike]

end Loads

end AuthoredStyle.SourceMap
