import AuthoredStyle.Proofs.Selector.Climb
import AuthoredStyle.Proofs.SourceMap.Provenance
import AuthoredStyle.Proofs.StyleTree.Shape
import AuthoredStyle.Proofs.Value.Silence

/-!
# Which declared properties a node keeps

A node keeps what the rules that match its element declare and the browser has something
to say about, less the longhands of a shorthand that is kept while the source has that
shorthand alone. Shorthands are gone through one after the other, each on what the ones
before it have left; as no longhand is a shorthand, the order makes no difference.

The main statement is about elements whose matching rules all come from one file with an
authored set. Elements with rules of several files are not settled by it.
-/

namespace AuthoredStyle

theorem Property.not_mem_longhands {s t : String} (hs : s ∈ shorthands) (ht : t ∈ shorthands) :
    s ∉ longhands t := by
  have flat : ∀ t ∈ shorthands, ∀ s ∈ longhands t, s ∉ shorthands := by decide +kernel
  exact fun covered => flat t ht s covered hs

namespace Inspection

/-! ## Going through the shorthands -/

section Removal

/-- The shorthand is there and drives the property out. -/
def drops (sets : List NameSet) (styles : Styles) (p shorthand : String) : Bool :=
  styles.contains shorthand && isShorthandOnly sets shorthand &&
    (Property.longhands shorthand).contains p

variable {sets : List NameSet}

theorem get?_dropLonghands (styles : Styles) (shorthand p : String) :
    (dropLonghands sets styles shorthand).get? p =
      if drops sets styles p shorthand then none else styles.get? p := by
  rw [dropLonghands, drops]
  cases styles.contains shorthand && isShorthandOnly sets shorthand with
  | false => rfl
  | true =>
    rw [if_pos rfl, Dict.get?_filterKeys, Bool.true_and]
    cases (Property.longhands shorthand).contains p <;> rfl

/-- What stands for a shorthand is not touched on another one's turn. -/
theorem drops_dropLonghands (styles : Styles) {s t : String} (hs : s ∈ Property.shorthands)
    (ht : t ∈ Property.shorthands) (p : String) :
    drops sets (dropLonghands sets styles s) p t = drops sets styles p t := by
  have kept : drops sets styles t s = false := by
    rw [drops, List.contains_eq_mem, decide_eq_false (Property.not_mem_longhands ht hs),
      Bool.and_false]
  have same : (dropLonghands sets styles s).contains t = styles.contains t := by
    rw [Dict.contains, get?_dropLonghands, kept]
    rfl
  rw [drops, drops, same]

theorem get?_foldl_dropLonghands {ss : List String} (all : ∀ s ∈ ss, s ∈ Property.shorthands)
    (styles : Styles) (p : String) :
    (ss.foldl (dropLonghands sets) styles).get? p =
      if ss.any (drops sets styles p) then none else styles.get? p := by
  induction ss generalizing styles with
  | nil => rfl
  | cons s ss ih =>
    obtain ⟨hs, later⟩ := List.forall_mem_cons.mp all
    have onward : ss.any (drops sets (dropLonghands sets styles s) p) =
        ss.any (drops sets styles p) := by
      rw [Bool.eq_iff_iff, List.any_eq_true, List.any_eq_true]
      exact exists_congr fun t => and_congr_right fun ht => by
        rw [drops_dropLonghands styles hs (later t ht)]
    rw [List.foldl_cons, ih later, onward, get?_dropLonghands, List.any_cons]
    cases drops sets styles p s <;> simp

/-- All shorthands drive their longhands out as if at once. -/
theorem get?_withoutRedundant (styles : Styles) (p : String) :
    (withoutRedundant styles sets).get? p =
      if Property.shorthands.any (drops sets styles p) then none else styles.get? p :=
  get?_foldl_dropLonghands (fun _ hs => hs) styles p

end Removal

/-! ## Values that are read -/

section Values

variable (v : Inspection) (h : Page.Handle)

/-- What stands for a property if it is read and says something. -/
def authoredValue? (p : String) : Option String :=
  (meaningful? p (v.page.computed h p)).map fun said => Value.normalize p said (v.fontSize h)

theorem get?_withAuthored (styles : Styles) (q p : String) :
    (v.withAuthored h styles q).get? p =
      if p = q then (v.authoredValue? h p).or (styles.get? p) else styles.get? p := by
  rw [withAuthored, authoredValue?]
  by_cases here : p = q
  · subst here
    cases meaningful? p (v.page.computed h p) <;> simp
  · cases meaningful? q (v.page.computed h q) <;> simp [here]

theorem get?_foldl_withAuthored (properties : List String) (styles : Styles) (p : String) :
    (properties.foldl (v.withAuthored h) styles).get? p =
      if p ∈ properties then (v.authoredValue? h p).or (styles.get? p) else styles.get? p := by
  induction properties generalizing styles with
  | nil => rfl
  | cons q properties ih =>
    rw [List.foldl_cons, ih, get?_withAuthored]
    by_cases here : p = q
    · subst here
      cases v.authoredValue? h p <;> simp
    · simp [here]

theorem get?_authoredValues (properties : List String) (p : String) :
    (v.authoredValues h properties).get? p =
      if p ∈ properties then v.authoredValue? h p else none := by
  rw [authoredValues, get?_foldl_withAuthored, Dict.get?_empty, Option.or_none]

/-- What a node keeps was read. -/
theorem read_of_get?_styles {v : Inspection} {h : Page.Handle} {p value : String}
    (found : (v.styles h).get? p = some value) :
    p ∈ v.candidates (v.matching h) ∧ v.authoredValue? h p = some value := by
  have read : (v.authoredValues h (v.candidates (v.matching h))).get? p = some value := by
    rw [styles] at found
    split at found
    · rw [get?_withoutRedundant] at found
      split at found
      · cases found
      · exact found
    · exact found
  rw [get?_authoredValues] at read
  split at read
  · exact ⟨‹_›, read⟩
  · cases read

/-- What no shorthand covers is kept as it is read. -/
theorem get?_styles_of_uncovered {p : String}
    (uncovered : ∀ s ∈ Property.shorthands, p ∉ Property.longhands s) :
    (v.styles h).get? p =
      if p ∈ v.candidates (v.matching h) then v.authoredValue? h p else none := by
  have kept (sets : List NameSet) (read : Styles) :
      Property.shorthands.any (drops sets read p) = false := by
    refine List.any_eq_false.mpr fun s hs => ?_
    simp [drops, uncovered s hs]
  rw [styles, ← get?_authoredValues]
  split
  · rw [get?_withoutRedundant, kept, if_neg Bool.false_ne_true]
  · rfl

end Values

/-! ## Elements that something is declared for -/

section Declared

variable (v : Inspection) (h : Page.Handle)

/-- A rule that matches the element declares the property, and the browser has something
to say about it. -/
def Declares (p : String) : Prop :=
  (∃ r ∈ v.matching h, p ∈ r.properties) ∧ (meaningful? p (v.page.computed h p)).isSome

/-- A shorthand declared for the element covers the property, and the file of some rule
that matches the element has that shorthand alone. -/
def Displaces (p : String) : Prop :=
  ∃ s ∈ Property.shorthands, p ∈ Property.longhands s ∧ v.Declares h s ∧
    ∃ r ∈ v.matching h, v.index.AuthorsAlone r.file s

/-- A rule that matches the element declares a property of the table. -/
def IsStyled : Prop := ∃ p ∈ Property.important, ∃ r ∈ v.matching h, p ∈ r.properties

variable {v h}

theorem mem_candidates (on : v.useSourceMap) (styled : v.IsStyled h) (p : String) :
    p ∈ v.candidates (v.matching h) ↔
      p ∈ Property.important ∧ ∃ r ∈ v.matching h, p ∈ r.properties := by
  have declared (q : String) :
      (q ∈ Property.important.filter fun q => (v.matching h).any fun r => q ∈ r.properties) ↔
        q ∈ Property.important ∧ ∃ r ∈ v.matching h, q ∈ r.properties := by
    simp only [List.mem_filter, List.any_eq_true, decide_eq_true_eq]
  obtain ⟨q, hq⟩ := styled
  have nonempty := List.ne_nil_of_mem ((declared q).mpr hq)
  simp only [candidates, if_pos on, List.isEmpty_eq_false_iff.mpr nonempty, Bool.false_eq_true,
    if_false]
  exact declared p

theorem isShorthandOnly_authoredSets (matched : v.matching h ≠ []) (s : String) :
    isShorthandOnly (v.authoredSets (v.matching h)) s = true ↔
      ∃ r ∈ v.matching h, v.index.AuthorsAlone r.file s := by
  have alone (a : NameSet) :
      (decide (s ∈ a) && !(Property.longhands s).any fun l => decide (l ∈ a)) = true ↔
        s ∈ a ∧ ∀ l ∈ Property.longhands s, l ∉ a := by
    simp
  rw [isShorthandOnly, authoredSets, if_neg (by simpa using matched), List.any_eq_true]
  simp only [List.mem_filterMap, alone]
  constructor
  · rintro ⟨a, ⟨r, hr, known⟩, only⟩
    refine ⟨r, hr, ?_⟩
    simpa only [SourceMap.Index.AuthorsAlone, SourceMap.Index.authors_iff known] using only
  · rintro ⟨r, hr, only⟩
    obtain ⟨a, known, -⟩ := only.1
    refine ⟨a, ⟨r, hr, known⟩, ?_⟩
    simpa only [SourceMap.Index.AuthorsAlone, SourceMap.Index.authors_iff known] using only

theorem IsStyled.matching_ne_nil (styled : v.IsStyled h) : v.matching h ≠ [] := by
  obtain ⟨-, -, r, hr, -⟩ := styled
  exact List.ne_nil_of_mem hr

/-- Kept is what is declared and not displaced, whatever files the matching rules are from. -/
theorem isSome_get?_styles (on : v.useSourceMap) (styled : v.IsStyled h) (p : String) :
    ((v.styles h).get? p).isSome ↔
      p ∈ Property.important ∧ v.Declares h p ∧ ¬ v.Displaces h p := by
  let read := v.authoredValues h (v.candidates (v.matching h))
  have kept (q : String) : (read.get? q).isSome ↔ q ∈ Property.important ∧ v.Declares h q := by
    rw [get?_authoredValues, Declares, ← and_assoc, ← mem_candidates on styled]
    split
    · rename_i candidate
      simp [candidate, authoredValue?]
    · rename_i other
      simp [other]
  have displaced : (Property.shorthands.any (drops (v.authoredSets (v.matching h)) read p)) = true ↔
      v.Displaces h p := by
    simp only [List.any_eq_true, drops, Bool.and_eq_true, Dict.contains, kept,
      isShorthandOnly_authoredSets styled.matching_ne_nil, List.contains_iff_mem]
    refine exists_congr fun s => and_congr_right fun hs => ?_
    have important := List.mem_of_mem_filter hs
    tauto
  rw [styles, if_pos on, get?_withoutRedundant]
  split
  · rename_i gone
    simp [displaced.mp gone]
  · rename_i stays
    rw [kept, and_iff_left (mt displaced.mpr stays)]

end Declared

/-! ## Elements with rules of one file -/

section Nodes

variable (v : Inspection) (h : Page.Handle)

/-- A rule for elements as they stand whose selector matches the element. -/
def Applies (r : Sheet.PlainRule) : Prop :=
  r ∈ v.rules.plain ∧ Selector.Matches r.selector v.page h

/-- What the browser reports of a property, without the blanks around it. -/
def reported (p : String) : String := String.ofList (Text.trim (v.page.computed h p).toList)

/-- A rule that applies declares the property, and what is reported of it is not silent, or
that the element is not displayed. -/
def Tells (p : String) : Prop :=
  (∃ r, v.Applies h r ∧ p ∈ r.properties) ∧
    (¬ IsSilent p (v.reported h p) ∨ p = "display" ∧ v.reported h p = "none")

/-- A shorthand that is told covers the property, and the source has that shorthand alone. -/
def Covers (authored : NameSet) (p : String) : Prop :=
  ∃ s ∈ authored, p ∈ Property.longhands s ∧ v.Tells h s ∧ ∀ l ∈ Property.longhands s, l ∉ authored

variable {v h}

theorem mem_matching_iff (on : v.useSourceMap) {r : Sheet.PlainRule} :
    r ∈ v.matching h ↔ v.Applies h r := by
  rw [matching, if_pos on, List.mem_filter, Selector.selects_iff_matches, Applies]

theorem declares_iff_tells (on : v.useSourceMap) {p : String} :
    v.Declares h p ↔ v.Tells h p := by
  have said : (meaningful? p (v.page.computed h p)).isSome ↔
      ¬ IsSilent p (v.reported h p) ∨ p = "display" ∧ v.reported h p = "none" := by
    simp only [Option.isSome_iff_exists, meaningful?_eq_some_iff, exists_eq_left, reported]
  simp only [Declares, Tells, said, mem_matching_iff on]

/-- Rules that are read declare properties of the table only, and some. -/
theorem isStyled_of_areNames (matched : v.matching h ≠ [])
    (names : ∀ r ∈ v.matching h, Sheet.AreNames r.properties) : v.IsStyled h := by
  obtain ⟨r, hr⟩ := List.exists_mem_of_ne_nil _ matched
  obtain ⟨p, hp⟩ := NameSet.exists_mem_of_ne_empty (names r hr).nonempty
  exact ⟨p, (names r hr).important p hp, r, hr, hp⟩

theorem exists_file_iff {file : String} (matched : v.matching h ≠ [])
    (oneFile : ∀ r ∈ v.matching h, r.file = file) (q : String → Prop) :
    (∃ r ∈ v.matching h, q r.file) ↔ q file := by
  obtain ⟨r, hr⟩ := List.exists_mem_of_ne_nil _ matched
  exact ⟨fun ⟨r, hr, here⟩ => oneFile r hr ▸ here, fun here => ⟨r, hr, oneFile r hr ▸ here⟩⟩

theorem displaces_iff_covers (on : v.useSourceMap) {file : String} {authored : NameSet}
    (matched : v.matching h ≠ []) (names : ∀ r ∈ v.matching h, Sheet.AreNames r.properties)
    (oneFile : ∀ r ∈ v.matching h, r.file = file) (known : v.index.file? file = some authored)
    (p : String) : v.Displaces h p ↔ v.Covers h authored p := by
  have alone (s : String) : (∃ r ∈ v.matching h, v.index.AuthorsAlone r.file s) ↔
      s ∈ authored ∧ ∀ l ∈ Property.longhands s, l ∉ authored := by
    rw [exists_file_iff matched oneFile (v.index.AuthorsAlone · s), SourceMap.Index.AuthorsAlone]
    simp only [SourceMap.Index.authors_iff known]
  simp only [Displaces, Covers, alone, declares_iff_tells on]
  constructor
  · rintro ⟨s, -, covered, told, authors, only⟩
    exact ⟨s, authors, covered, told, only⟩
  · rintro ⟨s, authors, covered, told, only⟩
    obtain ⟨r, applies, declared⟩ := told.1
    have listed := (names r ((mem_matching_iff on).mpr applies)).important s declared
    refine ⟨s, List.mem_filter.mpr ⟨listed, ?_⟩, covered, told, authors, only⟩
    simpa using List.ne_nil_of_mem covered

/-- Kept is what is told and not covered, with the value that the browser reports. -/
theorem get?_styles {file : String} {authored : NameSet} (on : v.useSourceMap)
    (matched : v.matching h ≠ [])
    (names : ∀ r ∈ v.matching h, Sheet.AreNames r.properties)
    (oneFile : ∀ r ∈ v.matching h, r.file = file) (known : v.index.file? file = some authored)
    (p : String) :
    (((v.styles h).get? p).isSome ↔ v.Tells h p ∧ ¬ v.Covers h authored p) ∧
      ∀ value, (v.styles h).get? p = some value →
        value = Value.normalize p (v.reported h p)
          (Value.px? (v.page.computed h "font-size").toList) := by
  have important (declared : v.Declares h p) : p ∈ Property.important := by
    obtain ⟨⟨r, hr, hp⟩, -⟩ := declared
    exact (names r hr).important p hp
  constructor
  · rw [isSome_get?_styles on (isStyled_of_areNames matched names),
      displaces_iff_covers on matched names oneFile known, ← declares_iff_tells on]
    exact ⟨fun kept => kept.2, fun kept => ⟨important kept.1, kept⟩⟩
  · intro value found
    obtain ⟨said, told, rfl⟩ := Option.map_eq_some_iff.mp (read_of_get?_styles found).2
    rw [(meaningful?_eq_some_iff.mp told).1]
    rfl

theorem Portrays.styles_eq {maxDepth : Nat} {h : Page.Handle} {m : StyleNode}
    (own : v.Portrays maxDepth h m) : m.styles = v.styles h := by
  cases own
  rfl

@[simp] theorem styles_tree (v : Inspection) (maxDepth : Nat) (h : Page.Handle) :
    (v.tree maxDepth h).styles = v.styles h := by
  unfold tree
  cases maxDepth <;> rfl

end Nodes

/-- Over a whole tree, on rules read from any sheets: an element to which rules of one file
apply, which has an authored set, keeps what they declare, if what is reported of it says
something and no shorthand covers it that the file has alone. It keeps it in authored form,
for the font size that is reported of the element itself. -/
theorem tree_keeps_authored (s : Page.Snapshot) (sheets : List (String × String))
    (index : SourceMap.Index) (maxDepth : Nat) (r : Page.Handle) :
    let v : Inspection :=
      ⟨Page.ofSnapshot s, .join (sheets.map fun sheet => Sheet.read sheet.1 sheet.2), index, true⟩
    ∃ elements : List Page.Handle,
      List.Forall₂ (fun h m => v.Represents maxDepth r h m ∧
          ∀ file authored, (∃ rule, v.Applies h rule) → (∀ rule, v.Applies h rule → rule.file = file) →
            index.file? file = some authored →
            ∀ p, ((m.styles.get? p).isSome ↔ v.Tells h p ∧ ¬ v.Covers h authored p) ∧
              ∀ value, m.styles.get? p = some value →
                value = Value.normalize p
                  (String.ofList (Text.trim (v.page.computed h p).toList))
                  (Value.px? (v.page.computed h "font-size").toList))
        elements (v.tree maxDepth r).nodes := by
  intro v
  have wellFormed : v.rules.WellFormed fun _ => True := by
    refine Sheet.RuleSet.join_induction Sheet.RuleSet.wellFormed_empty
      (fun a b ha hb => Sheet.RuleSet.wellFormed_append_iff.mpr ⟨ha, hb⟩) fun rules read => ?_
    obtain ⟨sheet, -, rfl⟩ := List.mem_map.mp read
    exact (Sheet.wellFormed_read sheet.1 sheet.2).mono fun _ _ => trivial
  have names (h : Page.Handle) : ∀ rule ∈ v.matching h, Sheet.AreNames rule.properties := by
    intro rule hr
    exact (wellFormed.plain rule (List.mem_of_mem_filter hr)).2.1
  have applies {h : Page.Handle} {rule : Sheet.PlainRule} :
      rule ∈ v.matching h ↔ v.Applies h rule := mem_matching_iff rfl
  refine ⟨_, (nodes_tree (Page.numbers_ofSnapshot s) maxDepth r).imp
    fun h m stands => ⟨stands, ?_⟩⟩
  intro file authored ⟨rule, hr⟩ oneFile known
  rw [stands.portrays.styles_eq]
  exact get?_styles rfl (List.ne_nil_of_mem (applies.mpr hr)) (names h)
    (fun rule hr => oneFile rule (applies.mp hr)) known

/-! ## A card whose source has one shorthand alone -/

def cardPage : Page.Snapshot where
  document := {
    tag := "div"
    classes := ["card"]
    computed := .ofList [("border", "1px solid red"), ("border-top", "1px solid red"),
      ("padding", "4px"), ("padding-top", "4px"), ("position", "static"), ("font-size", "16px"),
      ("line-height", "24px"), ("letter-spacing", " 4px ")] }
  stylesheets := []

/-- Both shorthands are declared with a longhand of theirs, and something that nothing is
reported of. -/
def cardSheet : String :=
  ".card{border:1px solid red;border-top:1px solid red;padding:4px;padding-top:4px;margin:0;
    position:static;line-height:1.5;letter-spacing:.25em}"

/-- In the source a longhand of `padding` stands too. -/
def cardAuthored : NameSet := .ofList ["border", "padding", "padding-top"]

def cardIndex : SourceMap.Index := (∅ : SourceMap.Index).insert "card.css" cardAuthored

def card : Inspection where
  page := .ofSnapshot cardPage
  rules := .join ([(cardSheet, "card.css")].map fun sheet => Sheet.read sheet.1 sheet.2)
  index := cardIndex
  useSourceMap := true

theorem tree_keeps_authored_of_card :
    let styles := (card.tree 5 0).styles
    (∀ p ∈ ["border", "padding", "padding-top"], (styles.get? p).isSome) ∧
      (∀ p ∈ ["border-top", "margin", "position", "font-size"], styles.get? p = none) ∧
      styles.get? "line-height" = some "1.5" ∧ styles.get? "letter-spacing" = some "0.25em" := by
  intro styles
  obtain ⟨elements, represented⟩ :=
    tree_keeps_authored cardPage [(cardSheet, "card.css")] cardIndex 5 0
  change List.Forall₂ _ elements (card.tree 5 0).nodes at represented
  rw [StyleNode.nodes_eq] at represented
  obtain ⟨h, elements, ⟨stands, kept⟩, -, rfl⟩ := List.forall₂_cons_right_iff.mp represented
  cases (stands.depth_iff 0).mpr rfl
  let names := NameSet.ofList ["border", "border-top", "padding", "padding-top", "margin",
    "position", "line-height", "letter-spacing"]
  have matching : card.matching 0 = [⟨".card", names, "card.css"⟩] := by decide +kernel
  have applies (r : Sheet.PlainRule) : card.Applies 0 r ↔ r = ⟨".card", names, "card.css"⟩ := by
    rw [← mem_matching_iff rfl, matching, List.mem_singleton]
  have tells (p : String) : card.Tells 0 p ↔ p ∈ names ∧
      (¬ IsSilent p (card.reported 0 p) ∨ p = "display" ∧ card.reported 0 p = "none") := by
    simp [Tells, applies]
  have known := kept "card.css" cardAuthored ⟨_, (applies _).mpr rfl⟩
    (fun r hr => (applies r).mp hr ▸ rfl) (by decide +kernel)
  have present (p : String) :
      (styles.get? p).isSome ↔ card.Tells 0 p ∧ ¬ card.Covers 0 cardAuthored p := (known p).1
  have value (p : String) (some : (styles.get? p).isSome) :
      styles.get? p = .some (Value.normalize p (card.reported 0 p)
        (Value.px? (card.page.computed 0 "font-size").toList)) := by
    obtain ⟨value', found⟩ := Option.isSome_iff_exists.mp some
    exact found.trans (congrArg _ ((known p).2 value' found))
  simp only [Covers, tells, NameSet.mem_def] at present
  have lineHeight := value "line-height" ((present _).mpr (by decide +kernel))
  have letterSpacing := value "letter-spacing" ((present _).mpr (by decide +kernel))
  refine ⟨?_, ?_, lineHeight.trans (by decide +kernel), letterSpacing.trans (by decide +kernel)⟩
  · simp only [present]
    decide +kernel
  · simp only [← Option.not_isSome_iff_eq_none, present]
    decide +kernel

end Inspection

end AuthoredStyle
