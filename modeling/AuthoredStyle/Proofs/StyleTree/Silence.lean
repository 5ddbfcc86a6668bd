import AuthoredStyle.Proofs.StyleTree.Redundancy

/-!
# Nodes keep no silent value

Whatever the rules, the index and the options are, each entry of a node's styles is of a
property of the table and says something, as it stands behind the rewriting. The one
exception is an element that is not displayed: that is kept, and kept wherever the
display is read.

Values of boxes, breakpoints and hovering come from rules, not from the browser, and are
not looked at in this way.
-/

namespace AuthoredStyle.Inspection

variable {v : Inspection} {h : Page.Handle}

theorem mem_important_of_mem_candidates {rules : List Sheet.PlainRule} {p : String}
    (candidate : p ∈ v.candidates rules) : p ∈ Property.important := by
  unfold candidates at candidate
  split at candidate
  · dsimp only at candidate
    split at candidate
    · exact List.mem_of_mem_filter candidate
    · exact List.mem_of_mem_filter candidate
  · exact candidate

theorem speaks_of_authoredValue? {p value : String} (read : v.authoredValue? h p = some value) :
    ¬ IsSilent p value ∨ p = "display" ∧ value = "none" := by
  obtain ⟨said, told, rfl⟩ := Option.map_eq_some_iff.mp read
  rcases (meaningful?_eq_some_iff.mp told).2 with speaks | ⟨rfl, rfl⟩
  · refine .inl fun silent => ?_
    rw [Value.normalize_eq_self_of_isSilent silent] at silent
    exact speaks silent
  · exact .inr ⟨rfl, rfl⟩

theorem get?_styles_display (candidate : "display" ∈ v.candidates (v.matching h))
    (hidden : String.ofList (Text.trim (v.page.computed h "display").toList) = "none") :
    (v.styles h).get? "display" = some "none" := by
  have uncovered : ∀ s ∈ Property.shorthands, "display" ∉ Property.longhands s := by
    decide +kernel
  have told : meaningful? "display" (v.page.computed h "display") = some "none" :=
    meaningful?_eq_some_iff.mpr ⟨hidden.symm, .inr ⟨rfl, rfl⟩⟩
  rw [get?_styles_of_uncovered v h uncovered, if_pos candidate, authoredValue?, told]
  rfl

/-- Over a whole tree: every value kept is of a property of the table, is not empty and is
no default, `display: none` apart, which is kept wherever the display is read. -/
theorem tree_keeps_no_default (s : Page.Snapshot) (rules : Sheet.RuleSet)
    (index : SourceMap.Index) (o : BuildOptions) (r : Page.Handle) :
    let v : Inspection := ⟨Page.ofSnapshot s, rules, index, o.useSourceMap⟩
    ∃ elements : List Page.Handle,
      List.Forall₂ (fun h m => v.Represents o.maxDepth r h m ∧
          (∀ p value, m.styles.get? p = some value →
            p ∈ Property.important ∧ value ≠ "" ∧
              (value ∉ Property.defaults p ∧ value ∉ ["none", "normal", "auto"] ∨
                p = "display" ∧ value = "none")) ∧
          ("display" ∈ v.candidates (v.matching h) →
            String.ofList (Text.trim (v.page.computed h "display").toList) = "none" →
              m.styles.get? "display" = some "none"))
        elements (v.tree o.maxDepth r).nodes := by
  intro v
  refine ⟨_, (nodes_tree (Page.numbers_ofSnapshot s) o.maxDepth r).imp fun h m stands => ⟨stands, ?_, ?_⟩⟩
  · rw [stands.portrays.styles_eq]
    intro p value found
    obtain ⟨candidate, read⟩ := read_of_get?_styles found
    refine ⟨mem_important_of_mem_candidates candidate, ?_⟩
    rcases speaks_of_authoredValue? read with speaks | ⟨rfl, rfl⟩
    · rw [IsSilent, not_or, not_or] at speaks
      exact ⟨speaks.1, .inl speaks.2⟩
    · exact ⟨by decide, .inr ⟨rfl, rfl⟩⟩
  · rw [stands.portrays.styles_eq]
    exact get?_styles_display

/-! ## A panel that is not displayed -/

/-- Beside a word that means nothing anywhere, two properties have defaults of their own. -/
def hiddenPage : Page.Snapshot where
  document := {
    tag := "div"
    computed := .ofList [("display", " none "), ("width", "auto"), ("outline-color", "#ff0000"),
      ("position", "static"), ("opacity", "1")] }
  stylesheets := []

theorem tree_keeps_no_default_of_hidden :
    let v : Inspection := ⟨Page.ofSnapshot hiddenPage, ∅, ∅, false⟩
    let root := v.tree 5 0
    root.styles = .ofList [("display", "none"), ("outline-color", "#ff0000")] ∧
      root.styles.get? "display" = some "none" ∧
      ("#ff0000" ≠ "" ∧ "#ff0000" ∉ Property.defaults "outline-color") ∧
      ∀ p ∈ ["position", "opacity"], v.page.computed 0 p ∈ Property.defaults p ∧
        root.styles.get? p ≠ some (v.page.computed 0 p) := by
  intro v root
  obtain ⟨elements, represented⟩ := tree_keeps_no_default hiddenPage ∅ ∅ ⟨5, false⟩ 0
  change List.Forall₂ _ elements (v.tree 5 0).nodes at represented
  rw [StyleNode.nodes_eq] at represented
  obtain ⟨h, elements, ⟨stands, kept, displayed⟩, -, rfl⟩ :=
    List.forall₂_cons_right_iff.mp represented
  cases (stands.depth_iff 0).mpr rfl
  have styles : root.styles = .ofList [("display", "none"), ("outline-color", "#ff0000")] := by
    decide +kernel
  have defaults : ∀ p ∈ ["position", "opacity"],
      v.page.computed 0 p ∈ Property.defaults p ∧ p ≠ "display" := by
    decide +kernel
  refine ⟨styles, displayed (by decide +kernel) (by decide +kernel), ?_, fun p hp => ?_⟩
  · have outline : root.styles.get? "outline-color" = some "#ff0000" := by
      rw [styles]
      decide +kernel
    obtain ⟨-, some, speaks | ⟨other, -⟩⟩ := kept "outline-color" "#ff0000" outline
    · exact ⟨some, speaks.1⟩
    · exact absurd other (by decide)
  · obtain ⟨default, other⟩ := defaults p hp
    refine ⟨default, fun found => ?_⟩
    rcases (kept p _ found).2.2 with speaks | ⟨display, -⟩
    · exact speaks.1 default
    · exact other display

end AuthoredStyle.Inspection
