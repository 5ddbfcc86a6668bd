import AuthoredStyle.Proofs.Selector.Climb
import AuthoredStyle.Proofs.StyleTree.Shape

/-!
# Styles that rules give a node

Boxes, breakpoints and hovering are not computed by the browser, so their styles are those
that the rules for them declare. Several rules may match an element and declare the same
property. They are merged one after the other, and values are brought into authored form
before they are merged, so the last rule that declares a property has the last word on it,
however the rules in front of it are put together. The form is for the font size that the
browser reports of the element itself.
-/

namespace AuthoredStyle

/-! ## Merged styles -/

namespace Dict

theorem valueIn_map {β γ : Type} (f : String → β → γ) (k : String) (es : List (String × β)) :
    valueIn k (es.map fun e => (e.1, f e.1 e.2)) = (valueIn k es).map (f k) := by
  induction es with
  | nil => rfl
  | cons e es ih =>
    rw [List.map_cons, valueIn, valueIn, ih]
    by_cases here : k = e.1
    · simp [here]
    · simp [here]

end Dict

namespace Styles

theorem get?_override (a b : Styles) (p : String) :
    (a.override b).get? p = (b.get? p).or (a.get? p) := by
  have own := Dict.get?_foldl_insert b.entries ∅ p
  rw [← Dict.ofList, Dict.ofList_entries, Dict.get?_empty, Option.or_none] at own
  rw [override, Dict.get?_foldl_insert, ← own]

end Styles

namespace GroupedStyles

theorem get?_add (g : GroupedStyles) (group k : String) (s : Styles) :
    (g.add group s).get? k =
      if k = group then some (((g.get? k).getD ∅).override s) else g.get? k := by
  rw [add, Dict.get?_insert]
  by_cases here : k = group
  · rw [if_pos here, if_pos here, here]
  · rw [if_neg here, if_neg here]

/-- The groups do not get in each other's way. -/
theorem get?_foldl_add {ρ : Type} (group : ρ → String) (styles : ρ → Styles) (rules : List ρ)
    (g : GroupedStyles) (k : String) :
    (rules.foldl (fun g r => g.add (group r) (styles r)) g).get? k =
      if rules.any (group · = k) then
        some ((rules.filter (group · = k)).foldl (fun s r => s.override (styles r))
          ((g.get? k).getD ∅))
      else g.get? k := by
  induction rules generalizing g with
  | nil => rfl
  | cons r rules ih =>
    rw [List.foldl_cons, ih, get?_add, List.any_cons, List.filter_cons]
    by_cases here : group r = k
    · simp only [here, decide_true, Bool.true_or, if_true, List.foldl_cons, Option.getD_some]
      cases later : rules.any (group · = k) with
      | true => rfl
      | false =>
        have none : rules.filter (group · = k) = [] :=
          List.filter_eq_nil_iff.mpr fun q hq => List.any_eq_false.mp later q hq
        rw [none]
        rfl
    · simp [here, Ne.symm here]

end GroupedStyles

namespace Inspection

/-! ## The last word on a property -/

section Gathering

variable {ρ : Type}

/-- Of the rules that count, the last one that declares the property declares this value. -/
def LastDeclares (counts : ρ → Prop) (properties : ρ → Styles) (rules : List ρ)
    (p value : String) : Prop :=
  ∃ before r after, rules = before ++ r :: after ∧ counts r ∧
    (properties r).get? p = some value ∧ ∀ q ∈ after, counts q → (properties q).get? p = none

theorem LastDeclares.of_getElem? {counts : ρ → Prop} {properties : ρ → Styles} {rules : List ρ}
    {i : Nat} {r : ρ} {p value : String} (here : rules[i]? = some r) (counted : counts r)
    (declared : (properties r).get? p = some value)
    (silent : ∀ q ∈ rules.drop (i + 1), counts q → (properties q).get? p = none) :
    LastDeclares counts properties rules p value := by
  refine ⟨rules.take i, r, rules.drop (i + 1), ?_, counted, declared, silent⟩
  obtain ⟨inside, rfl⟩ := List.getElem?_eq_some_iff.mp here
  rw [← List.drop_eq_getElem_cons, List.take_append_drop]

variable (v : Inspection) (h : Page.Handle)

/-- What the rules that count declare, each property as the last of them has it, in authored
form for the element's own font size. -/
structure Gathers (counts : ρ → Prop) (properties : ρ → Styles) (rules : List ρ) (s : Styles) :
    Prop where
  present_iff : ∀ p, (s.get? p).isSome ↔ ∃ r ∈ rules, counts r ∧ ((properties r).get? p).isSome
  value_eq : ∀ p value, LastDeclares counts properties rules p value →
    s.get? p = some (Value.normalize p value (Value.px? (v.page.computed h "font-size").toList))

/-- The same for the rules of each group that match the element, and no group without one. -/
structure GathersBy (group selector : ρ → String) (properties : ρ → Styles) (rules : List ρ)
    (g : GroupedStyles) : Prop where
  present_iff : ∀ k, (g.get? k).isSome ↔
    ∃ r ∈ rules, group r = k ∧ Selector.Matches (selector r) v.page h
  gathers : ∀ k s, g.get? k = some s →
    v.Gathers h (fun r => group r = k ∧ Selector.Matches (selector r) v.page h) properties rules s

theorem get?_normalized (declared : Styles) (p : String) :
    (v.normalized h declared).get? p =
      (declared.get? p).map fun value => Value.normalize p value (v.fontSize h) := by
  let form (p value : String) := Value.normalize p value (v.fontSize h)
  have whole : v.normalized h declared =
      .ofList (declared.entries.map fun e => (e.1, form e.1 e.2)) := by
    rw [normalized, Dict.ofList, List.foldl_map]
  have increasing : (declared.entries.map fun e => (e.1, form e.1 e.2)).Pairwise (·.1 < ·.1) :=
    List.pairwise_map.mpr declared.increasing
  rw [whole, Dict.get?, Dict.entries_ofList increasing, Dict.valueIn_map]
  rfl

/-- Going backwards, the first rule that declares the property decides. -/
def lastValue? (properties : ρ → Styles) (rules : List ρ) (p : String) : Option String :=
  rules.reverse.findSome? fun r => (properties r).get? p

theorem lastValue?_append (properties : ρ → Styles) (rules later : List ρ) (p : String) :
    lastValue? properties (rules ++ later) p =
      (lastValue? properties later p).or (lastValue? properties rules p) := by
  rw [lastValue?, List.reverse_append, List.findSome?_append]
  rfl

theorem lastValue?_cons (properties : ρ → Styles) (r : ρ) (rules : List ρ) (p : String) :
    lastValue? properties (r :: rules) p =
      (lastValue? properties rules p).or ((properties r).get? p) := by
  have alone : lastValue? properties [r] p = (properties r).get? p := by
    simp only [lastValue?, List.reverse_singleton, List.findSome?_cons, List.findSome?_nil]
    cases (properties r).get? p <;> rfl
  rw [← List.singleton_append, lastValue?_append, alone]

theorem get?_foldl_override (properties : ρ → Styles) (rules : List ρ) (s : Styles) (p : String) :
    (rules.foldl (fun s r => s.override (v.normalized h (properties r))) s).get? p =
      ((lastValue? properties rules p).map fun value =>
        Value.normalize p value (v.fontSize h)).or (s.get? p) := by
  induction rules generalizing s with
  | nil => rfl
  | cons r rules ih =>
    rw [List.foldl_cons, ih, Styles.get?_override, get?_normalized, lastValue?_cons]
    cases lastValue? properties rules p <;> rfl

theorem gathers_foldl (counts : ρ → Prop) [DecidablePred counts] (properties : ρ → Styles)
    (rules : List ρ) :
    v.Gathers h counts properties rules
      ((rules.filter (counts ·)).foldl
        (fun s r => s.override (v.normalized h (properties r))) ∅) where
  present_iff := by
    intro p
    rw [get?_foldl_override, Dict.get?_empty, Option.or_none, Option.isSome_map, lastValue?,
      List.findSome?_isSome_iff]
    simp only [List.mem_reverse, List.mem_filter, decide_eq_true_eq, and_assoc]
  value_eq := by
    rintro p value ⟨before, r, after, rfl, counted, declared, silent⟩
    have kept : (r :: after).filter (counts ·) = r :: after.filter (counts ·) :=
      List.filter_cons_of_pos (decide_eq_true counted)
    have nothing : lastValue? properties (after.filter (counts ·)) p = none := by
      refine List.findSome?_eq_none_iff.mpr fun q hq => ?_
      obtain ⟨mem, counts⟩ := List.mem_filter.mp (List.mem_reverse.mp hq)
      exact silent q mem (of_decide_eq_true counts)
    rw [get?_foldl_override, List.filter_append, kept, lastValue?_append, lastValue?_cons, nothing,
      declared]
    rfl

/-- The rules that match in the sense of the matcher. -/
theorem filter_selects (selector : ρ → String) (rules : List ρ) :
    (rules.filter fun r => Selector.selects (selector r) v.page h) =
      rules.filter fun r => decide (Selector.Matches (selector r) v.page h) := by
  simp only [Selector.decide_matches]

theorem gathersBy_foldl (group selector : ρ → String) (properties : ρ → Styles) (rules : List ρ) :
    v.GathersBy h group selector properties rules
      ((rules.filter fun r => Selector.selects (selector r) v.page h).foldl
        (fun g r => g.add (group r) (v.normalized h (properties r))) ∅) := by
  rw [filter_selects]
  let matching := rules.filter fun r => decide (Selector.Matches (selector r) v.page h)
  have grouped (k : String) := GroupedStyles.get?_foldl_add group
    (fun r => v.normalized h (properties r)) matching ∅ k
  constructor
  case present_iff =>
    intro k
    have some_iff : matching.any (group · = k) = true ↔
        ∃ r ∈ rules, group r = k ∧ Selector.Matches (selector r) v.page h := by
      simp only [matching, List.any_eq_true, List.mem_filter, decide_eq_true_eq]
      exact exists_congr fun r => by rw [and_right_comm, and_assoc]
    rw [grouped, ← some_iff]
    cases matching.any (group · = k) <;> simp
  case gathers =>
    intro k s found
    rw [grouped] at found
    split at found
    · cases found
      have both : (matching.filter (group · = k)) =
          rules.filter fun r => group r = k ∧ Selector.Matches (selector r) v.page h := by
        rw [List.filter_filter]
        exact List.filter_congr fun r _ => (Bool.decide_and _ _).symm
      rw [both]
      exact v.gathers_foldl h _ properties rules
    · cases found

end Gathering

/-! ## What a node carries -/

section Nodes

variable (v : Inspection) (h : Page.Handle)

/-- The styles of boxes, breakpoints and hovering are gathered from the rules for them that
match the element. -/
structure CarriesRules (m : StyleNode) : Prop where
  pseudo : v.GathersBy h (fun r : Sheet.PseudoRule => r.element.text) (·.selector) (·.properties)
    v.rules.pseudo m.pseudo
  media : v.GathersBy h (fun r : Sheet.MediaRule => r.breakpoint) (·.selector) (·.properties)
    v.rules.media m.media
  hover : v.Gathers h (fun r : Sheet.HoverRule => Selector.Matches r.selector v.page h)
    (·.properties) v.rules.hover m.hover

variable {v h} {m : StyleNode} {maxDepth : Nat}

theorem Portrays.carriesRules (on : v.useSourceMap = true) (own : v.Portrays maxDepth h m) :
    v.CarriesRules h m := by
  cases own
  constructor
  · show v.GathersBy h _ _ _ _ (v.pseudo h)
    rw [pseudo, if_pos on]
    exact v.gathersBy_foldl h _ _ _ _
  · show v.GathersBy h _ _ _ _ (v.media h)
    rw [media, if_pos on]
    exact v.gathersBy_foldl h _ _ _ _
  · show v.Gathers h _ _ _ (v.hover h)
    rw [hover, if_pos on, v.filter_selects h (fun r : Sheet.HoverRule => r.selector)]
    exact v.gathers_foldl h (fun r => Selector.Matches r.selector v.page h) (·.properties)
      v.rules.hover

theorem Portrays.carries_none (off : v.useSourceMap = false) (own : v.Portrays maxDepth h m) :
    m.pseudo = ∅ ∧ m.media = ∅ ∧ m.hover = ∅ := by
  cases own
  have without : ¬ v.useSourceMap = true := by simp [off]
  exact ⟨if_neg without, if_neg without, if_neg without⟩

end Nodes

/-- Over a whole tree: a node carries the styles of exactly those boxes and breakpoints for
which a rule matches its element, of each property the value that the last such rule
declares, and the same for hovering. Without a source map it carries none. -/
theorem tree_carries_rules (s : Page.Snapshot) (rules : Sheet.RuleSet)
    (index : SourceMap.Index) (o : BuildOptions) (r : Page.Handle) :
    let v : Inspection := ⟨Page.ofSnapshot s, rules, index, o.useSourceMap⟩
    ∃ elements : List Page.Handle,
      List.Forall₂ (fun h m => v.Represents o.maxDepth r h m ∧
          (o.useSourceMap = true → v.CarriesRules h m) ∧
          (o.useSourceMap = false → m.pseudo = ∅ ∧ m.media = ∅ ∧ m.hover = ∅))
        elements (v.tree o.maxDepth r).nodes := by
  intro v
  refine ⟨_, (nodes_tree (Page.numbers_ofSnapshot s) o.maxDepth r).imp
    fun h m stands => ⟨stands, fun on => ?_, fun off => ?_⟩⟩
  · exact stands.portrays.carriesRules on
  · exact stands.portrays.carries_none off

/-! ## A badge with two colours for its box -/

def badgePage : Page.Snapshot where
  document := {
    tag := "div"
    classes := ["badge", "new"]
    computed := .ofList [("font-size", "16px")] }

/-- Of the three rules for `::before`, two match the badge. -/
def badgeRules : Sheet.RuleSet where
  pseudo := [⟨".badge", .before, .ofList [("color", "red"), ("letter-spacing", "4px")]⟩,
    ⟨".new", .before, .ofList [("color", "blue")]⟩, ⟨".old", .before, .ofList [("color", "gray")]⟩,
    ⟨".old", .after, .ofList [("top", "0")]⟩]
  media := [⟨".badge", "sp", .ofList [("top", "2px")]⟩, ⟨".old", "tab", .ofList [("top", "0")]⟩]
  hover := [⟨".badge", .ofList [("line-height", "8px")]⟩, ⟨".new", .ofList [("line-height", "24px")]⟩]

def badge : Inspection := ⟨.ofSnapshot badgePage, badgeRules, ∅, true⟩

/-- The box has the later of its two colours and keeps the earlier rule's spacing. -/
theorem tree_carries_rules_of_badge :
    let m := badge.tree 5 0
    (∃ box, m.pseudo.get? "::before" = some box ∧ box.get? "color" = some "blue" ∧
        box.get? "letter-spacing" = some "0.25em" ∧ box.get? "top" = none) ∧
      m.pseudo.get? "::after" = none ∧
      (∃ narrow, m.media.get? "sp" = some narrow ∧ narrow.get? "top" = some "2px") ∧
      m.media.get? "tab" = none ∧ m.hover.get? "line-height" = some "1.5" ∧
      m.hover.get? "top" = none := by
  intro m
  obtain ⟨elements, represented⟩ := tree_carries_rules badgePage badgeRules ∅ ⟨5, true⟩ 0
  change List.Forall₂ _ elements (badge.tree 5 0).nodes at represented
  rw [StyleNode.nodes_eq] at represented
  obtain ⟨h, elements, ⟨stands, carries, -⟩, -, rfl⟩ := List.forall₂_cons_right_iff.mp represented
  cases (stands.depth_iff 0).mpr rfl
  obtain ⟨pseudo, media, hover⟩ := carries rfl
  obtain ⟨box, isBox⟩ := Option.isSome_iff_exists.mp
    ((pseudo.present_iff "::before").mpr (by decide +kernel))
  obtain ⟨narrow, isNarrow⟩ := Option.isSome_iff_exists.mp
    ((media.present_iff "sp").mpr (by decide +kernel))
  have inBox := pseudo.gathers "::before" box isBox
  have inNarrow := media.gathers "sp" narrow isNarrow
  have absent {β : Type} {d : Dict β} {k : String} (none : ¬ (d.get? k).isSome) : d.get? k = .none :=
    Option.not_isSome_iff_eq_none.mp none
  refine ⟨⟨box, isBox, ?color, ?spacing, absent ?_⟩, absent ?_, ⟨narrow, isNarrow, ?top⟩,
    absent ?_, ?height, absent ?_⟩
  case color =>
    refine (inBox.value_eq "color" "blue" (.of_getElem? (i := 1) rfl ?_ ?_ ?_)).trans ?_ <;>
      decide +kernel
  case spacing =>
    refine (inBox.value_eq "letter-spacing" "4px" (.of_getElem? (i := 0) rfl ?_ ?_ ?_)).trans ?_ <;>
      decide +kernel
  case top =>
    refine (inNarrow.value_eq "top" "2px" (.of_getElem? (i := 0) rfl ?_ ?_ ?_)).trans ?_ <;>
      decide +kernel
  case height =>
    refine (hover.value_eq "line-height" "24px" (.of_getElem? (i := 1) rfl ?_ ?_ ?_)).trans ?_ <;>
      decide +kernel
  · exact mt (inBox.present_iff "top").mp (by decide +kernel)
  · exact mt (pseudo.present_iff "::after").mp (by decide +kernel)
  · exact mt (media.present_iff "tab").mp (by decide +kernel)
  · exact mt (hover.present_iff "top").mp (by decide +kernel)

end Inspection

end AuthoredStyle
