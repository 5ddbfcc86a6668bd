import AuthoredStyle.Proofs.StyleTree.Redundancy

/-!
# Overrides from other files

An element is often styled from several files, of which one has a shorthand and another
overrides a side of it. The longhand is authored then, but it is dropped all the same: one
file that has the shorthand alone is enough, whatever the others have.

So a longhand that the file of its own rule has is kept exactly if no other file behind the
element's rules has a shorthand of it alone that is declared for the element. Elements
with rules of one file never lose such a longhand. Nothing is said about longhands that no
source has.
-/

namespace AuthoredStyle

namespace Property

def IsLonghand (p : String) : Prop := ∃ s ∈ shorthands, p ∈ longhands s

instance : DecidablePred IsLonghand := fun p =>
  inferInstanceAs (Decidable (∃ s ∈ shorthands, p ∈ longhands s))

theorem IsLonghand.mem_important {p : String} (long : IsLonghand p) : p ∈ important := by
  have listed : ∀ s ∈ shorthands, ∀ l ∈ longhands s, l ∈ important := by decide +kernel
  obtain ⟨s, hs, hp⟩ := long
  exact listed s hs p hp

end Property

namespace Inspection

/-- The file has a shorthand alone that is declared for the element and covers the
property. -/
def Overrules (v : Inspection) (h : Page.Handle) (file p : String) : Prop :=
  ∃ s ∈ Property.shorthands, p ∈ Property.longhands s ∧ v.Declares h s ∧
    v.index.AuthorsAlone file s

instance (v : Inspection) (h : Page.Handle) (p : String) : Decidable (v.Declares h p) :=
  inferInstanceAs (Decidable (_ ∧ _))

instance (v : Inspection) (h : Page.Handle) (file p : String) :
    Decidable (v.Overrules h file p) :=
  inferInstanceAs (Decidable (∃ s ∈ Property.shorthands, _))

variable {v : Inspection} {h : Page.Handle}

theorem displaces_iff (p : String) :
    v.Displaces h p ↔ ∃ r ∈ v.matching h, v.Overrules h r.file p := by
  constructor
  · rintro ⟨s, hs, covered, declared, r, hr, alone⟩
    exact ⟨r, hr, s, hs, covered, declared, alone⟩
  · rintro ⟨r, hr, s, hs, covered, declared, alone⟩
    exact ⟨s, hs, covered, declared, r, hr, alone⟩

/-- A file does not overrule what it has itself. -/
theorem Overrules.not_authors {file p : String} (ruled : v.Overrules h file p) :
    ¬ v.index.Authors file p := by
  obtain ⟨s, -, covered, -, alone⟩ := ruled
  exact alone.2 p covered

theorem isSome_get?_styles_of_authors (on : v.useSourceMap) {rule : Sheet.PlainRule}
    (matched : rule ∈ v.matching h) {l : String} (long : Property.IsLonghand l)
    (declared : l ∈ rule.properties) (authored : v.index.Authors rule.file l)
    (said : (meaningful? l (v.page.computed h l)).isSome) :
    ((v.styles h).get? l).isSome ↔
      ∀ other ∈ v.matching h, other.file ≠ rule.file → ¬ v.Overrules h other.file l := by
  have styled : v.IsStyled h := ⟨l, long.mem_important, rule, matched, declared⟩
  have declares : v.Declares h l := ⟨⟨rule, matched, declared⟩, said⟩
  rw [isSome_get?_styles on styled, displaces_iff]
  constructor
  · rintro ⟨-, -, free⟩ other hr - ruled
    exact free ⟨other, hr, ruled⟩
  · intro free
    refine ⟨long.mem_important, declares, ?_⟩
    rintro ⟨other, hr, ruled⟩
    by_cases same : other.file = rule.file
    · exact ruled.not_authors (same ▸ authored)
    · exact free other hr same ruled

/-- Over a whole tree: a longhand that a matching rule declares, that the rule's own file
has and that the browser has something to say about, is kept exactly if no other file
behind the element's rules overrules it. -/
theorem tree_keeps_authored_longhands (s : Page.Snapshot) (rules : Sheet.RuleSet)
    (index : SourceMap.Index) (maxDepth : Nat) (r : Page.Handle) :
    let v : Inspection := ⟨Page.ofSnapshot s, rules, index, true⟩
    ∃ elements : List Page.Handle,
      List.Forall₂ (fun h m => v.Represents maxDepth r h m ∧
          ∀ rule ∈ v.matching h, ∀ l ∈ rule.properties, Property.IsLonghand l →
            index.Authors rule.file l → (meaningful? l (v.page.computed h l)).isSome →
            ((m.styles.get? l).isSome ↔
              ∀ other ∈ v.matching h, other.file ≠ rule.file → ¬ v.Overrules h other.file l))
        elements (v.tree maxDepth r).nodes := by
  intro v
  refine ⟨_, (nodes_tree (Page.numbers_ofSnapshot s) maxDepth r).imp fun h m stands => ⟨stands, ?_⟩⟩
  intro rule matched l declared long authored said
  rw [stands.portrays.styles_eq]
  exact isSome_get?_styles_of_authors rfl matched long declared authored said

/-! ## A card that a second file makes tight -/

def tightPage : Page.Snapshot where
  document := {
    tag := "div"
    classes := ["card", "tight"]
    computed := .ofList [("padding", "4px 8px 8px"), ("padding-top", "4px"),
      ("margin", "8px 8px 8px 2px"), ("margin-top", "8px"), ("margin-left", "2px")] }

/-- The base has `padding` alone, but `margin` with a longhand. -/
def tightIndex : SourceMap.Index :=
  ((∅ : SourceMap.Index).insert "base.css" (.ofList ["padding", "margin", "margin-top"])).insert
    "tight.css" (.ofList ["padding-top", "margin-left"])

def tightRules : Sheet.RuleSet :=
  Sheet.read ".card\x7bpadding:8px;margin:8px;margin-top:8px\x7d" "base.css" ++
    Sheet.read ".tight\x7bpadding-top:4px;margin-left:2px\x7d" "tight.css"

def tightCard : Inspection := ⟨.ofSnapshot tightPage, tightRules, tightIndex, true⟩

def baseRule : Sheet.PlainRule where
  selector := ".card"
  properties := .ofList ["padding", "margin", "margin-top"]
  file := "base.css"

def tightRule : Sheet.PlainRule where
  selector := ".tight"
  properties := .ofList ["padding-top", "margin-left"]
  file := "tight.css"

theorem tightCard_eq :
    tightCard = ⟨.ofSnapshot tightPage, ⟨[baseRule, tightRule], [], [], []⟩, tightIndex, true⟩ := by
  have read : tightRules = ⟨[baseRule, tightRule], [], [], []⟩ := by decide +kernel
  rw [tightCard, read]

/-- The second file has the longhands that its rule declares, and the base overrules one of
them. -/
theorem tightCard_facts :
    tightCard.matching 0 = [baseRule, tightRule] ∧
      (∀ l ∈ tightRule.properties.toList, Property.IsLonghand l ∧
        tightIndex.Authors tightRule.file l ∧
        (meaningful? l (tightCard.page.computed 0 l)).isSome) ∧
      ¬ tightCard.Overrules 0 baseRule.file "margin-left" ∧
      tightCard.Overrules 0 baseRule.file "padding-top" := by
  rw [tightCard_eq]
  decide +kernel

theorem mem_tightRule {p : String} :
    p ∈ tightRule.properties ↔ p = "padding-top" ∨ p = "margin-left" := by
  simp [tightRule]

/-- What the second rule declares is kept unless the base overrules it. -/
theorem others_tightCard (p : String) :
    (∀ other ∈ tightCard.matching 0, other.file ≠ tightRule.file →
      ¬ tightCard.Overrules 0 other.file p) ↔ ¬ tightCard.Overrules 0 baseRule.file p := by
  have apart : baseRule.file ≠ tightRule.file := by decide
  simp [tightCard_facts.1, apart]

/-- Both longhands are authored in the second file and computed. The base overrules the one
whose shorthand it has alone. -/
theorem tree_keeps_authored_longhands_of_tight :
    let kept (p : String) := ((tightCard.tree 5 0).styles.get? p).isSome
    kept "margin-left" ∧ ¬ kept "padding-top" := by
  intro kept
  obtain ⟨matching, told, free, overruled⟩ := tightCard_facts
  obtain ⟨elements, represented⟩ :=
    tree_keeps_authored_longhands tightPage tightRules tightIndex 5 0
  change List.Forall₂ _ elements (tightCard.tree 5 0).nodes at represented
  rw [StyleNode.nodes_eq] at represented
  obtain ⟨h, elements, ⟨stands, styles⟩, -, rfl⟩ := List.forall₂_cons_right_iff.mp represented
  cases (stands.depth_iff 0).mpr rfl
  have kept_iff (l : String) (hl : l ∈ tightRule.properties) :
      kept l ↔ ¬ tightCard.Overrules 0 baseRule.file l := by
    obtain ⟨long, authored, said⟩ := told l hl
    have matched : tightRule ∈ tightCard.matching 0 := by simp [matching]
    exact (styles tightRule matched l hl long authored said).trans (others_tightCard l)
  rw [kept_iff _ (mem_tightRule.mpr (.inr rfl)), kept_iff _ (mem_tightRule.mpr (.inl rfl))]
  exact ⟨free, not_not.mpr overruled⟩

/-- The rule's own file has the longhand, and yet the element loses it. -/
theorem override_lost_to_other_file :
    (∃ rule ∈ tightCard.matching 0, "padding-top" ∈ rule.properties ∧
        Property.IsLonghand "padding-top" ∧ tightIndex.Authors rule.file "padding-top") ∧
      (meaningful? "padding-top" (tightCard.page.computed 0 "padding-top")).isSome ∧
      (tightCard.tree 5 0).styles.get? "padding-top" = none := by
  obtain ⟨matching, told, -, overruled⟩ := tightCard_facts
  have matched : tightRule ∈ tightCard.matching 0 := by simp [matching]
  have declared : "padding-top" ∈ tightRule.properties := mem_tightRule.mpr (.inl rfl)
  obtain ⟨long, authored, said⟩ := told "padding-top" declared
  have kept_iff := isSome_get?_styles_of_authors rfl matched long declared authored said
  rw [others_tightCard, ← styles_tree tightCard 5] at kept_iff
  refine ⟨⟨tightRule, matched, declared, long, authored⟩, said, ?_⟩
  exact Option.not_isSome_iff_eq_none.mp fun kept => kept_iff.mp kept overruled

end Inspection

end AuthoredStyle
