import AuthoredStyle.Proofs.Sheet.Path
import AuthoredStyle.Proofs.Sheet.Reads
import AuthoredStyle.Proofs.Sheet.Stripping

/-!
# Well-formed rules

Whatever a text is, the rules that are read from it are well formed: their selectors are
stripped and collapsed and say more than that there is an element, and what they list or
keep are declarations of known properties with trimmed values. Appending keeps this, so it
holds of all rules that are ever put together from sheets.

Selectors need not be selectors of CSS, nor values those of their properties.
-/

namespace AuthoredStyle.Sheet

open Text (collapse)

/-- What is left of a selector that rules are kept for. -/
structure IsBase (selector : String) : Prop where
  nonempty : selector ≠ ""
  collapsed : collapse selector.toList = selector.toList
  notAny : selector ≠ "*"
  noAtRule : selector.toList.head? ≠ some '@'
  noAttribute : selector.toList.head? ≠ some '['
  named : NamesClassOrId selector.toList
  stripped : splitPseudo selector.toList = (selector.toList, [])

structure IsValue (value : String) : Prop where
  nonempty : value ≠ ""
  trimmed : Text.trim value.toList = value.toList

def IsDeclared (d : String × String) : Prop := d.1 ∈ Property.important ∧ IsValue d.2

structure AreNames (properties : NameSet) : Prop where
  nonempty : properties ≠ ∅
  important : ∀ p ∈ properties, p ∈ Property.important

structure AreStyles (properties : Dict String) : Prop where
  nonempty : properties ≠ ∅
  declared : ∀ e ∈ properties.entries, IsDeclared e

/-- Every rule in every bucket is well formed, and plain rules are from these files. -/
structure RuleSet.WellFormed (files : String → Prop) (rules : RuleSet) : Prop where
  plain : ∀ r ∈ rules.plain, IsBase r.selector ∧ AreNames r.properties ∧ files r.file
  pseudo : ∀ r ∈ rules.pseudo, IsBase r.selector ∧ AreStyles r.properties
  media : ∀ r ∈ rules.media, IsBase r.selector ∧ AreStyles r.properties ∧
    r.breakpoint ∈ Property.breakpoints.map (·.2)
  hover : ∀ r ∈ rules.hover, IsBase r.selector ∧ AreStyles r.properties

namespace RuleSet

variable {files : String → Prop} {a b : RuleSet}

theorem wellFormed_empty : WellFormed files ∅ :=
  ⟨fun _ h => absurd h List.not_mem_nil, fun _ h => absurd h List.not_mem_nil,
    fun _ h => absurd h List.not_mem_nil, fun _ h => absurd h List.not_mem_nil⟩

theorem wellFormed_append_iff :
    (a ++ b).WellFormed files ↔ a.WellFormed files ∧ b.WellFormed files := by
  constructor
  · rintro ⟨plain, pseudo, media, hover⟩
    simp only [plain_append, pseudo_append, media_append, hover_append,
      List.forall_mem_append] at plain pseudo media hover
    exact ⟨⟨plain.1, pseudo.1, media.1, hover.1⟩, ⟨plain.2, pseudo.2, media.2, hover.2⟩⟩
  · rintro ⟨ha, hb⟩
    constructor
    · exact List.forall_mem_append.mpr ⟨ha.plain, hb.plain⟩
    · exact List.forall_mem_append.mpr ⟨ha.pseudo, hb.pseudo⟩
    · exact List.forall_mem_append.mpr ⟨ha.media, hb.media⟩
    · exact List.forall_mem_append.mpr ⟨ha.hover, hb.hover⟩

theorem WellFormed.mono (h : a.WellFormed files) {files' : String → Prop}
    (more : ∀ file, files file → files' file) : a.WellFormed files' where
  plain := fun r hr =>
    let ⟨base, names, from'⟩ := h.plain r hr
    ⟨base, names, more _ from'⟩
  pseudo := h.pseudo
  media := h.media
  hover := h.hover

end RuleSet

section Declarations

theorem isValue_trim {said : List Char} (some : Text.trim said ≠ []) :
    IsValue (String.ofList (Text.trim said)) where
  nonempty := by simpa [String.ext_iff] using some
  trimmed := by rw [String.toList_ofList, Text.trim_trim]

theorem isValue_pixels (size : List Char) :
    IsValue (String.ofList (Text.trim size ++ ['p', 'x'])) where
  nonempty := by simp [String.ext_iff]
  trimmed := by
    have unit : Text.StartsVisible ['p', 'x'] := by
      intro c hc
      cases hc
      rfl
    have starts := (Text.startsVisible_trim size).append unit
    rw [String.toList_ofList]
    refine Text.trim_eq_self starts fun c hc => ?_
    rw [List.getLast?_append_of_ne_nil _ (List.cons_ne_nil _ _)] at hc
    cases hc
    rfl

theorem isValue_of_written? {statement value : List Char} {name : String}
    (wrote : written? statement = some (name, value)) (some : value ≠ []) :
    IsValue (String.ofList value) := by
  unfold written? at wrote
  dsimp only at wrote
  split at wrote
  case h_1 call _ =>
    obtain ⟨size, -, same⟩ := Option.map_eq_some_iff.mp wrote
    cases same
    exact isValue_pixels size
  case h_2 =>
    obtain ⟨parts, -, same⟩ := Option.map_eq_some_iff.mp wrote
    cases same
    exact isValue_trim some

theorem isDeclared_of_declaration? {statement : List Char} {d : String × String}
    (h : declaration? statement = some d) : IsDeclared d := by
  unfold declaration? at h
  split at h
  case h_2 => cases h
  case h_1 name value wrote =>
    split at h
    · cases h
    · rename_i kept
      cases h
      simp only [Bool.or_eq_true, List.isEmpty_iff, Bool.not_eq_true', not_or,
        Bool.not_eq_false] at kept
      exact ⟨List.contains_iff_mem.mp kept.2, isValue_of_written? wrote kept.1⟩

theorem mem_of_mem_declare {name value : String} {ds : Declarations} {d : String × String}
    (h : d ∈ declare name value ds) : d = (name, value) ∨ d ∈ ds := by
  induction ds with
  | nil => exact .inl (List.mem_singleton.mp h)
  | cons e ds ih =>
    rw [declare] at h
    split at h
    · exact (List.mem_cons.mp h).imp_right (List.mem_cons_of_mem e)
    · rcases List.mem_cons.mp h with rfl | h
      · exact .inr List.mem_cons_self
      · exact (ih h).imp_right (List.mem_cons_of_mem e)

theorem isDeclared_of_mem_declarations {said : List (List Char)} {d : String × String}
    (h : d ∈ declarations said) : IsDeclared d := by
  have kept (es : List (String × String)) (ds : Declarations) (all : ∀ e ∈ es, IsDeclared e)
      (before : ∀ e ∈ ds, IsDeclared e) :
      ∀ e ∈ es.foldl (fun ds d => declare d.1 d.2 ds) ds, IsDeclared e := by
    induction es generalizing ds with
    | nil => exact before
    | cons e es ih =>
      refine ih _ (fun f hf => all f (List.mem_cons_of_mem e hf)) fun f hf => ?_
      rcases mem_of_mem_declare hf with rfl | hf
      · exact all e List.mem_cons_self
      · exact before f hf
  refine kept _ [] (fun e he => ?_) (fun e he => absurd he List.not_mem_nil) d h
  obtain ⟨statement, -, found⟩ := List.mem_filterMap.mp he
  exact isDeclared_of_declaration? found

variable {said : List (List Char)}

theorem areNames_declarations (some : declarations said ≠ []) :
    AreNames (.ofList ((declarations said).map (·.1))) where
  nonempty := by
    intro none
    obtain ⟨d, hd⟩ := List.exists_mem_of_ne_nil _ some
    have mem : d.1 ∈ NameSet.ofList ((declarations said).map (·.1)) :=
      NameSet.mem_ofList.mpr (List.mem_map_of_mem hd)
    rw [none] at mem
    exact NameSet.not_mem_empty _ mem
  important := by
    intro p hp
    obtain ⟨d, hd, rfl⟩ := List.mem_map.mp (NameSet.mem_ofList.mp hp)
    exact (isDeclared_of_mem_declarations hd).1

theorem areStyles_declarations (some : declarations said ≠ []) :
    AreStyles (.ofList (declarations said)) where
  nonempty := Dict.ofList_ne_empty some
  declared := fun _ he => isDeclared_of_mem_declarations (Dict.mem_of_mem_ofList he)

end Declarations

section Rules

theorem isBase_of_specific {selector : List Char} (h : isGeneric (splitPseudo selector).1 = false) :
    IsBase (String.ofList (splitPseudo selector).1) := by
  have collapsed : collapse (splitPseudo selector).1 = (splitPseudo selector).1 :=
    Text.collapse_collapse _
  have trimmed : Text.trim (splitPseudo selector).1 = (splitPseudo selector).1 :=
    Text.trim_collapse _
  simp only [isGeneric, trimmed, Bool.or_eq_false_iff, List.isEmpty_eq_false_iff,
    decide_eq_false_iff_not] at h
  obtain ⟨⟨⟨⟨some, notAny⟩, noAtRule⟩, noAttribute⟩, named⟩ := h
  constructor
  · simpa [String.ext_iff] using some
  · rwa [String.toList_ofList]
  · simpa [String.ext_iff] using notAny
  · rwa [String.toList_ofList]
  · rwa [String.toList_ofList]
  · rw [String.toList_ofList, NamesClassOrId]
    simpa [or_iff_not_imp_left] using named
  · rw [String.toList_ofList]
    exact splitPseudo_splitPseudo selector

/-- The rules that a list gives are well formed, from whatever text it was cut. -/
theorem wellFormed_listedRules (file : String) (ps : List Piece) :
    (listedRules file ps).WellFormed (· = file) := by
  have spreads : Spreads file (·.WellFormed (· = file)) := by
    refine ⟨RuleSet.wellFormed_empty, fun a b ha hb => ?_, fun selector said some => ?_⟩
    · exact RuleSet.wellFormed_append_iff.mpr ⟨ha, hb⟩
    · have names := areNames_declarations some
      have styles := areStyles_declarations some
      rcases ruleOf_cases selector (declarations said) file with
        none | ⟨specific, ⟨element, box⟩ | hover | plain⟩
      · rw [none]
        exact RuleSet.wellFormed_empty
      · rw [box]
        have base := isBase_of_specific specific
        constructor <;> simp [base, styles]
      · rw [hover]
        have base := isBase_of_specific specific
        constructor <;> simp [base, styles]
      · rw [plain]
        have base := isBase_of_specific specific
        constructor <;> simp [base, names]
  exact spreads.listedRules ps

theorem wellFormed_breakpointRules {breakpoint : String} {p : Piece}
    {r : MediaRule} (hr : r ∈ p.breakpointRules breakpoint) :
    IsBase r.selector ∧ AreStyles r.properties ∧ r.breakpoint = breakpoint := by
  cases p with
  | statement | stray | unclosed => exact absurd hr List.not_mem_nil
  | block lead body =>
    rw [Piece.breakpointRules] at hr
    split at hr
    · exact absurd hr List.not_mem_nil
    · rename_i some
      obtain ⟨selector, -, kept⟩ := List.mem_filterMap.mp hr
      dsimp only at kept
      split at kept
      · cases kept
      · rename_i plain
        cases kept
        simp only [Bool.or_eq_true, not_or, Bool.not_eq_true] at plain some
        exact ⟨isBase_of_specific plain.2,
          areStyles_declarations (List.isEmpty_eq_false_iff.mp some.2), rfl⟩

theorem wellFormed_mediaRules {p : Piece} {r : MediaRule} (hr : r ∈ p.mediaRules) :
    IsBase r.selector ∧ AreStyles r.properties ∧
      r.breakpoint ∈ Property.breakpoints.map (·.2) := by
  cases p with
  | statement | stray | unclosed => exact absurd hr List.not_mem_nil
  | block lead body =>
    rw [Piece.mediaRules] at hr
    split at hr
    · exact absurd hr List.not_mem_nil
    · split at hr
      · rename_i breakpoint found
        obtain ⟨condition, -, known⟩ := Option.bind_eq_some_iff.mp found
        obtain ⟨q, -, hr⟩ := List.mem_flatMap.mp hr
        obtain ⟨base, styles, rfl⟩ := wellFormed_breakpointRules hr
        exact ⟨base, styles, Property.mem_breakpoints_of_breakpoint? known⟩
      · exact absurd hr List.not_mem_nil

theorem wellFormed_read (text file : String) : (read text file).WellFormed (· = file) := by
  refine RuleSet.wellFormed_append_iff.mpr ⟨?_, wellFormed_listedRules file _⟩
  constructor
  case media =>
    intro r hr
    obtain ⟨p, -, hr⟩ := List.mem_flatMap.mp hr
    exact wellFormed_mediaRules hr
  all_goals exact fun r hr => absurd hr List.not_mem_nil

example :
    let rules := read ".a\\::not(.b) \n d,#c\x7btop:0;hue:1\x7d.a::Before\x7btop: 0 !important\x7d" ""
    rules.plain.map (fun r => (r.selector, r.properties.toList)) =
        [(".a\\: d", ["top"]), ("#c", ["top"])] ∧
      rules.pseudo.map (fun r => (r.selector, r.properties.entries)) = [(".a", [("top", "0")])] := by
  decide +kernel

end Rules

end AuthoredStyle.Sheet
