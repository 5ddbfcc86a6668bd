import AuthoredStyle.Proofs.StyleTree.Overrides

/-!
# Sheets that go by one name

A sheet is filed by the last part of its address, so two sheets of one page may share a
file of the index. Which longhands an element loses is then decided by what the sources of
both declare, though its rules may all be from one of them.

An element that a single sheet styles has the same styles as if that sheet were the only
one, exactly if the sheet and its namesakes together have the same shorthands alone as the
sheet has, as far as the element declares them with one of their longhands. Sheets that go
by other names never make a difference.
-/

namespace AuthoredStyle

open SourceMap (Fetcher fileName resolve)

theorem Property.shorthand_unique {s t l : String} (hs : s ∈ shorthands) (ht : t ∈ shorthands)
    (ls : l ∈ longhands s) (lt : l ∈ longhands t) : s = t := by
  have apart : ∀ s ∈ shorthands, ∀ t ∈ shorthands, ∀ l ∈ longhands s, l ∈ longhands t → s = t := by
    decide +kernel
  exact apart s hs t ht l ls lt

namespace Inspection

variable {v w : Inspection} {h : Page.Handle}

/-! ## Inspections of one page with the same rules for an element -/

theorem declares_congr (page : v.page = w.page)
    (same : ∀ r, r ∈ v.matching h ↔ r ∈ w.matching h) (p : String) :
    v.Declares h p ↔ w.Declares h p := by
  simp only [Declares, same, page]

/-- Styles differ only where one index displaces a declared property and the other does not. -/
theorem styles_eq_iff (onV : v.useSourceMap) (onW : w.useSourceMap) (page : v.page = w.page)
    (same : ∀ r, r ∈ v.matching h ↔ r ∈ w.matching h) (styled : v.IsStyled h) :
    v.styles h = w.styles h ↔
      ∀ p ∈ Property.important, v.Declares h p → (v.Displaces h p ↔ w.Displaces h p) := by
  have styled' : w.IsStyled h := by simpa only [IsStyled, same] using styled
  have kept (p : String) := isSome_get?_styles onV styled p
  have kept' (p : String) := isSome_get?_styles onW styled' p
  simp only [← declares_congr page same] at kept'
  constructor
  · intro equal p hp declared
    have iff : ((v.styles h).get? p).isSome ↔ ((w.styles h).get? p).isSome := by rw [equal]
    rw [kept, kept'] at iff
    tauto
  · intro displaced
    refine Dict.ext fun p => ?_
    have iff : ((v.styles h).get? p).isSome ↔ ((w.styles h).get? p).isSome := by
      rw [kept, kept']
      have := displaced p
      tauto
    have values : v.authoredValue? h p = w.authoredValue? h p := by
      rw [authoredValue?, authoredValue?, fontSize, fontSize, page]
    cases here : (v.styles h).get? p with
    | none =>
      rw [here, Option.isSome_none, Bool.false_eq_true, false_iff] at iff
      exact (Option.not_isSome_iff_eq_none.mp iff).symm
    | some value =>
      rw [here] at iff
      obtain ⟨value', there⟩ := Option.isSome_iff_exists.mp (iff.mp rfl)
      have one := (read_of_get?_styles here).2
      have other := (read_of_get?_styles there).2
      rw [there, ← one, ← other, values]

/-- A shorthand declared for the element together with a longhand of its. -/
def Crowds (v : Inspection) (h : Page.Handle) (s : String) : Prop :=
  s ∈ Property.shorthands ∧ v.Declares h s ∧ ∃ l ∈ Property.longhands s, v.Declares h l

instance (v : Inspection) (h : Page.Handle) (s : String) : Decidable (v.Crowds h s) :=
  inferInstanceAs (Decidable (_ ∧ _ ∧ ∃ l ∈ Property.longhands s, _))

theorem displaces_iff_of_one_file {file : String} (matched : v.matching h ≠ [])
    (oneFile : ∀ r ∈ v.matching h, r.file = file) (p : String) :
    v.Displaces h p ↔ v.Overrules h file p := by
  rw [displaces_iff, exists_file_iff matched oneFile (v.Overrules h · p)]

/-- With all rules from one file, styles depend on which shorthands the file has alone. -/
theorem styles_eq_iff_of_one_file (onV : v.useSourceMap) (onW : w.useSourceMap)
    (page : v.page = w.page) (same : ∀ r, r ∈ v.matching h ↔ r ∈ w.matching h)
    (styled : v.IsStyled h) {file : String} (oneFile : ∀ r ∈ v.matching h, r.file = file) :
    v.styles h = w.styles h ↔
      ∀ s, v.Crowds h s → (v.index.AuthorsAlone file s ↔ w.index.AuthorsAlone file s) := by
  have styled' : w.IsStyled h := by simpa only [IsStyled, same] using styled
  have oneFile' : ∀ r ∈ w.matching h, r.file = file := by simpa only [same] using oneFile
  have byFile := displaces_iff_of_one_file styled.matching_ne_nil oneFile
  have byFile' := displaces_iff_of_one_file styled'.matching_ne_nil oneFile'
  rw [styles_eq_iff onV onW page same styled]
  simp only [byFile, byFile']
  constructor
  · rintro displaced s ⟨hs, declared, l, hl, declaredLong⟩
    have long : Property.IsLonghand l := ⟨s, hs, hl⟩
    have alone {u : Inspection} (declares : u.Declares h s) :
        u.Overrules h file l ↔ u.index.AuthorsAlone file s := by
      constructor
      · rintro ⟨t, ht, covered, -, alone⟩
        exact Property.shorthand_unique hs ht hl covered ▸ alone
      · exact fun alone => ⟨s, hs, hl, declares, alone⟩
    rw [← alone declared, ← alone ((declares_congr page same s).mp declared)]
    exact displaced l long.mem_important declaredLong
  · intro alone p _ declared
    refine exists_congr fun s => and_congr_right fun hs => and_congr_right fun covered => ?_
    rw [← declares_congr page same]
    exact and_congr_right fun declares => alone s ⟨hs, declares, p, covered, declared⟩

/-! ## Pages with stylesheets at some addresses -/

/-- What a page shows once the stylesheets at these addresses are loaded. -/
def loaded [Libraries] (s : Page.Snapshot) (fetch : Fetcher) (hrefs : List String) : Inspection :=
  let load := resolve fetch (hrefs.map .external)
  ⟨.ofSnapshot s, load.rules, load.index, true⟩

section Loaded

variable [Libraries] {s : Page.Snapshot} {fetch : Fetcher} {hrefs : List String} {x : String}

theorem mem_matching_loaded (hrefs : List String) {rule : Sheet.PlainRule} :
    rule ∈ (loaded s fetch hrefs).matching h ↔
      ∃ y ∈ hrefs, rule ∈ (loaded s fetch [y]).matching h := by
  have split (ys : List String) : rule ∈ (loaded s fetch ys).matching h ↔
      (∃ y ∈ ys, ∃ c, SourceMap.contribution? fetch (.external y) = some c ∧ rule ∈ c.rules.plain) ∧
        Selector.selects rule.selector (.ofSnapshot s) h = true := by
    refine List.mem_filter.trans (and_congr_left fun _ => SourceMap.mem_plain_resolve_iff.trans ?_)
    simp only [List.mem_map, exists_exists_and_eq_and]
  simp only [split, List.mem_singleton, exists_eq_left]
  simp only [← and_assoc, exists_and_right]

theorem file_of_mem_matching {rule : Sheet.PlainRule}
    (matched : rule ∈ (loaded s fetch [x]).matching h) : rule.file = fileName x :=
  SourceMap.file_of_mem_plain (List.mem_of_mem_filter matched)

/-- A file of the index has what its sheets have, each by itself. -/
theorem authors_loaded_iff {p : String} :
    (loaded s fetch hrefs).index.Authors (fileName x) p ↔
      ∃ y ∈ hrefs, fileName y = fileName x ∧
        (loaded s fetch [y]).index.Authors (fileName y) p := by
  have split (ys : List String) (file : String) : (loaded s fetch ys).index.Authors file p ↔
      ∃ y ∈ ys, ∃ c, SourceMap.contribution? fetch (.external y) = some c ∧ c.file = file ∧
        p ∈ c.authored := by
    simp only [loaded, SourceMap.authors_resolve_iff, List.mem_map, exists_exists_and_eq_and]
  simp only [split, List.mem_singleton, exists_eq_left]
  refine exists_congr fun y => and_congr_right fun _ => ?_
  constructor
  · rintro ⟨c, contributes, file, hp⟩
    have own := SourceMap.file_of_contribution?_external contributes
    exact ⟨own.symm.trans file, c, contributes, own, hp⟩
  · rintro ⟨file, c, contributes, own, hp⟩
    exact ⟨c, contributes, own.trans file, hp⟩

theorem isStyled_loaded (matched : (loaded s fetch hrefs).matching h ≠ []) :
    (loaded s fetch hrefs).IsStyled h :=
  isStyled_of_areNames matched fun rule hr =>
    ((SourceMap.wellFormed_resolve fetch _).plain rule (List.mem_of_mem_filter hr)).2.1

theorem mem_matching_loaded_of_only (listed : x ∈ hrefs)
    (only : ∀ y ∈ hrefs, y ≠ x → (loaded s fetch [y]).matching h = []) (rule : Sheet.PlainRule) :
    rule ∈ (loaded s fetch [x]).matching h ↔ rule ∈ (loaded s fetch hrefs).matching h := by
  rw [mem_matching_loaded hrefs]
  constructor
  · exact fun hr => ⟨x, listed, hr⟩
  · rintro ⟨y, hy, hr⟩
    by_cases same : y = x
    · exact same ▸ hr
    · rw [only y hy same] at hr
      cases hr

theorem authorsAlone_loaded_of_no_namesake (listed : x ∈ hrefs)
    (unlike : ∀ y ∈ hrefs, y ≠ x → fileName y ≠ fileName x) (f : String) :
    (loaded s fetch [x]).index.AuthorsAlone (fileName x) f ↔
      (loaded s fetch hrefs).index.AuthorsAlone (fileName x) f := by
  have same (p : String) : (loaded s fetch hrefs).index.Authors (fileName x) p ↔
      (loaded s fetch [x]).index.Authors (fileName x) p := by
    rw [authors_loaded_iff]
    constructor
    · rintro ⟨y, hy, named, has⟩
      by_cases same : y = x
      · exact same ▸ has
      · exact absurd named (unlike y hy same)
    · exact fun has => ⟨x, listed, rfl, has⟩
  simp only [SourceMap.Index.AuthorsAlone, same]

theorem styles_loaded_iff (listed : x ∈ hrefs)
    (only : ∀ y ∈ hrefs, y ≠ x → (loaded s fetch [y]).matching h = [])
    (matched : (loaded s fetch [x]).matching h ≠ []) :
    (loaded s fetch hrefs).styles h = (loaded s fetch [x]).styles h ↔
      ∀ f, (loaded s fetch [x]).Crowds h f →
        ((loaded s fetch [x]).index.AuthorsAlone (fileName x) f ↔
          (loaded s fetch hrefs).index.AuthorsAlone (fileName x) f) := by
  have rules := mem_matching_loaded_of_only listed only
  have page : (loaded s fetch [x]).page = (loaded s fetch hrefs).page := rfl
  rw [eq_comm, styles_eq_iff_of_one_file rfl rfl page rules (isStyled_loaded matched)
    fun rule hr => file_of_mem_matching hr]

end Loaded

theorem represents_tree {t : Page.ElementSnapshot} (n : v.page.Numbers t) {maxDepth : Nat} :
    v.Represents maxDepth h h (v.tree maxDepth h) :=
  represents_treeFrom n rfl (Nat.zero_add _) .self

/-- A page with all stylesheets beside the same page with one of them, for an element that
this one alone styles. What the index has under the sheet's name is from all its namesakes;
the styles are the same exactly if that makes no difference to the shorthands that the
element declares together with a longhand, and so they are if there is no namesake. -/
theorem tree_styles_alone_iff [Libraries] (s : Page.Snapshot) (fetch : Fetcher)
    (hrefs : List String) (x : String) (listed : x ∈ hrefs) (maxDepth : Nat) (r : Page.Handle) :
    let whole := loaded s fetch hrefs
    let alone := loaded s fetch [x]
    ∃ elements : List Page.Handle,
      List.Forall₂ (whole.Represents maxDepth r) elements (whole.tree maxDepth r).nodes ∧
      List.Forall₂ (alone.Represents maxDepth r) elements (alone.tree maxDepth r).nodes ∧
      (∀ p, whole.index.Authors (fileName x) p ↔ ∃ y ∈ hrefs, fileName y = fileName x ∧
        (loaded s fetch [y]).index.Authors (fileName y) p) ∧
      ∀ h m m', whole.Represents maxDepth r h m → alone.Represents maxDepth r h m' →
        alone.matching h ≠ [] →
        (∀ y ∈ hrefs, y ≠ x → (loaded s fetch [y]).matching h = []) →
        (m.styles = m'.styles ↔ ∀ f, alone.Crowds h f →
          (alone.index.AuthorsAlone (fileName x) f ↔ whole.index.AuthorsAlone (fileName x) f)) ∧
        ((∀ y ∈ hrefs, y ≠ x → fileName y ≠ fileName x) → m.styles = m'.styles) := by
  intro whole alone
  have n : (Page.ofSnapshot s).Numbers s.document := Page.numbers_ofSnapshot s
  refine ⟨(Page.ofSnapshot s).within maxDepth r, nodes_treeFrom n rfl (Nat.zero_add _) .self,
    nodes_treeFrom n rfl (Nat.zero_add _) .self, fun p => authors_loaded_iff, ?_⟩
  intro h m m' stands stands' matched only
  rw [stands.portrays.styles_eq, stands'.portrays.styles_eq]
  have exact := styles_loaded_iff listed only matched
  exact ⟨exact, fun unlike =>
    exact.mpr fun f _ => authorsAlone_loaded_of_no_namesake listed unlike f⟩

/-! ## Two sheets called `s.css` -/

/-- The first sheet declares `gap` and a longhand of it; its source has `gap` alone. The
source of the second sheet has the longhand, for other elements. -/
def namesakeFetch : Fetcher := .ofBodies <| .ofList [
  ("http://a/s.css", ".card\x7bgap:8px;row-gap:4px\x7d/*# sourceMappingURL=m */"),
  ("http://a/m", "\x7b\"sources\":[\"s.scss\"],\"sourcesContent\":[\"  gap:8px\"]\x7d"),
  ("http://b/s.css", ".box\x7brow-gap:2px\x7d/*# sourceMappingURL=m */"),
  ("http://b/m", "\x7b\"sources\":[\"s.scss\"],\"sourcesContent\":[\"  row-gap:2px\"]\x7d"),
  ("http://c/box.css", ".box\x7brow-gap:2px\x7d/*# sourceMappingURL=m */")]

def namesakePage : Page.Snapshot where
  document := {
    tag := "div"
    classes := ["card"]
    computed := .ofList [("gap", "4px 8px"), ("row-gap", "4px")] }

def cardRule : Sheet.PlainRule := ⟨".card", .ofList ["gap", "row-gap"], "s.css"⟩

def boxRule (file : String) : Sheet.PlainRule := ⟨".box", .ofList ["row-gap"], file⟩

def cardSheetUrl : String := "http://a/s.css"

def namesakeUrl : String := "http://b/s.css"

def boxSheetUrl : String := "http://c/box.css"

/-- What each of the sheets says. -/
theorem resolve_namesakeFetch :
    resolve namesakeFetch [.external cardSheetUrl] =
        ⟨(∅ : SourceMap.Index).insert "s.css" (.ofList ["gap"]), ⟨[cardRule], [], [], []⟩⟩ ∧
      resolve namesakeFetch [.external namesakeUrl] =
        ⟨(∅ : SourceMap.Index).insert "s.css" (.ofList ["row-gap"]),
          ⟨[boxRule "s.css"], [], [], []⟩⟩ ∧
      resolve namesakeFetch [.external boxSheetUrl] =
        ⟨(∅ : SourceMap.Index).insert "box.css" ∅, ⟨[boxRule "box.css"], [], [], []⟩⟩ := by
  decide +kernel

theorem fileName_namesakes :
    fileName cardSheetUrl = "s.css" ∧ fileName namesakeUrl = "s.css" ∧
      fileName boxSheetUrl = "box.css" := by
  decide +kernel

/-- The page of the card with some sheets. -/
def cardWith (hrefs : List String) : Inspection := loaded namesakePage namesakeFetch hrefs

theorem cardWith_singleton {href : String} {index : SourceMap.Index} {rules : Sheet.RuleSet}
    (load : resolve namesakeFetch [.external href] = ⟨index, rules⟩) :
    cardWith [href] = ⟨.ofSnapshot namesakePage, rules, index, true⟩ := by
  rw [cardWith, loaded, List.map_singleton, load]

theorem matching_cardWith :
    (cardWith [cardSheetUrl]).matching 0 = [cardRule] ∧ (cardWith [namesakeUrl]).matching 0 = [] ∧
      (cardWith [boxSheetUrl]).matching 0 = [] := by
  obtain ⟨card, namesake, box⟩ := resolve_namesakeFetch
  rw [cardWith_singleton card, cardWith_singleton namesake, cardWith_singleton box]
  decide +kernel

theorem cardWith_only {href : String} (free : (cardWith [href]).matching 0 = []) :
    ∀ y ∈ [cardSheetUrl, href], y ≠ cardSheetUrl → (cardWith [y]).matching 0 = [] := by
  rintro y hy other
  rcases List.mem_cons.mp hy with rfl | hy
  · exact absurd rfl other
  · rw [List.mem_singleton.mp hy, free]

theorem matching_cardWith_ne_nil : (cardWith [cardSheetUrl]).matching 0 ≠ [] := by
  rw [matching_cardWith.1]
  exact List.cons_ne_nil _ _

/-- Beside a sheet with another name. -/
theorem tree_styles_alone_of_card :
    (cardWith [cardSheetUrl]).matching 0 = [cardRule] ∧
      ((cardWith [cardSheetUrl, boxSheetUrl]).tree 5 0).styles =
        ((cardWith [cardSheetUrl]).tree 5 0).styles := by
  obtain ⟨matched, -, free⟩ := matching_cardWith
  have unlike : ∀ y ∈ [cardSheetUrl, boxSheetUrl], y ≠ cardSheetUrl →
      fileName y ≠ fileName cardSheetUrl := by
    obtain ⟨card, -, box⟩ := fileName_namesakes
    simp [card, box]
  obtain ⟨-, -, -, -, styles⟩ := tree_styles_alone_iff namesakePage namesakeFetch
    [cardSheetUrl, boxSheetUrl] cardSheetUrl List.mem_cons_self 5 0
  have n := Page.numbers_ofSnapshot namesakePage
  exact ⟨matched, (styles 0 _ _ (represents_tree n) (represents_tree n) matching_cardWith_ne_nil
    (cardWith_only free)).2 unlike⟩

/-- The card declares `gap` with its row gap, of which its own source has `gap` alone; the
other sheet's source has the row gap. -/
theorem cardWith_crowds :
    (cardWith [cardSheetUrl]).Crowds 0 "gap" ∧
      (cardWith [cardSheetUrl]).index.AuthorsAlone "s.css" "gap" ∧
      (cardWith [namesakeUrl]).index.Authors "s.css" "row-gap" := by
  obtain ⟨card, namesake, -⟩ := resolve_namesakeFetch
  rw [cardWith_singleton card, cardWith_singleton namesake]
  decide +kernel

/-- The sheet of the card is the only one that styles it, and a sheet for other elements
changes what the card shows. -/
theorem namesake_changes_styles :
    (cardWith [cardSheetUrl]).matching 0 = [cardRule] ∧ (cardWith [namesakeUrl]).matching 0 = [] ∧
      ((cardWith [cardSheetUrl, namesakeUrl]).tree 5 0).styles ≠
        ((cardWith [cardSheetUrl]).tree 5 0).styles := by
  obtain ⟨matched, free, -⟩ := matching_cardWith
  obtain ⟨crowded, alone, longhand⟩ := cardWith_crowds
  obtain ⟨card, namesake, -⟩ := fileName_namesakes
  refine ⟨matched, free, fun equal => ?_⟩
  rw [styles_tree, styles_tree] at equal
  have both := (styles_loaded_iff List.mem_cons_self (cardWith_only free)
    matching_cardWith_ne_nil).mp equal "gap" crowded
  rw [card] at both
  refine (both.mp alone).2 "row-gap" (by simp [Property.longhands]) ?_
  rw [← card]
  exact authors_loaded_iff.mpr ⟨namesakeUrl, by simp, by rw [card, namesake],
    by rw [namesake]; exact longhand⟩

end Inspection

end AuthoredStyle
