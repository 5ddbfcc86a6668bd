import AuthoredStyle.Proofs.Sheet.WellFormed
import AuthoredStyle.Proofs.SourceMap.Merge

/-!
# Where rules and authored properties are from

A load reads each stylesheet by itself, so every rule is from one sheet, and so is every
property that the index has for a file. Rules and properties are filed by a name that is
made from the sheet's address or its map. Of an address only the last part counts: sheets
of different folders may go by one name, and the index then has for it what any of them
has.
-/

namespace AuthoredStyle.SourceMap

open Page (Stylesheet)

namespace Index

/-- The main sources of the file declare the property. -/
def Authors (i : Index) (file p : String) : Prop :=
  ∃ authored, i.file? file = some authored ∧ p ∈ authored

/-- The main sources of the file declare the shorthand and none of its longhands. -/
def AuthorsAlone (i : Index) (file s : String) : Prop :=
  i.Authors file s ∧ ∀ l ∈ Property.longhands s, ¬ i.Authors file l

instance (i : Index) (file p : String) : Decidable (i.Authors file p) :=
  decidable_of_iff ((i.file? file).any (decide <| p ∈ ·) = true)
    (by simp [Authors, Option.any_eq_true])

instance (i : Index) (file s : String) : Decidable (i.AuthorsAlone file s) :=
  inferInstanceAs (Decidable (_ ∧ _))

theorem authors_iff {i : Index} {file : String} {authored : NameSet}
    (known : i.file? file = some authored) (p : String) : i.Authors file p ↔ p ∈ authored := by
  simp [Authors, known]

theorem authors_of_merge {a b whole : Index} {file : String}
    (merged : whole.file? file = Option.merge (· ∪ ·) (a.file? file) (b.file? file)) (p : String) :
    whole.Authors file p ↔ a.Authors file p ∨ b.Authors file p := by
  rw [Authors, Authors, Authors, merged]
  cases a.file? file <;> cases b.file? file <;> simp [Option.merge]

theorem authors_gather_iff (cs : List Contribution) (file p : String) :
    (gather ∅ cs).Authors file p ↔ ∃ c ∈ cs, c.file = file ∧ p ∈ c.authored := by
  induction cs with
  | nil => simp [gather, Authors]
  | cons c cs ih =>
    have first : (insert ∅ c.file c.authored).Authors file p ↔ c.file = file ∧ p ∈ c.authored := by
      rw [Authors, file?_insert, file?_empty, Option.merge_none_left]
      by_cases own : file = c.file <;> simp [own, eq_comm]
    have split : gather ∅ (c :: cs) = (insert ∅ c.file c.authored).gather cs := rfl
    rw [split, authors_of_merge (file?_gather _ cs file), first, ih]
    simp

theorem file?_gather_of_mem {cs : List Contribution} {c : Contribution} (h : c ∈ cs)
    (i : Index) : (i.gather cs).file? c.file ≠ none := by
  obtain ⟨before, after, rfl⟩ := List.append_of_mem h
  have here : (i.gather before).gather (c :: after) =
      ((i.gather before).insert c.file c.authored).gather after := rfl
  rw [gather_append, here, file?_gather, file?_insert]
  simp

end Index

variable {fetch : Fetcher}

/-! ## Names -/

section Names

variable [Libraries]

/-- A sheet that contributes is read under the name that it is filed by. -/
theorem exists_read_of_contribution? {sheet : Stylesheet} {c : Contribution}
    (h : contribution? fetch sheet = some c) : ∃ css, c.rules = Sheet.read css c.file := by
  unfold contribution? at h
  split at h
  case h_1 => cases h
  case h_2 css base _ =>
    refine ⟨css, ?_⟩
    obtain ⟨reference, -, rfl⟩ := Option.map_eq_some_iff.mp h
    split
    · rfl
    · split <;> rfl

/-- A sheet with an address is filed by it, whether its map can be had or not. -/
theorem file_of_contribution?_external {href : String} {c : Contribution}
    (h : contribution? fetch (.external href) = some c) : c.file = fileName href := by
  unfold contribution? at h
  split at h
  case h_1 => cases h
  case h_2 css base _ =>
    obtain ⟨reference, -, rfl⟩ := Option.map_eq_some_iff.mp h
    split
    · rfl
    · split <;> rfl

end Names

/-! ## Well-formed resolutions -/

/-- All rules are well formed, and the plain ones are from files of the index. -/
def Resolution.WellFormed (r : Resolution) : Prop :=
  r.rules.WellFormed fun file => r.index.file? file ≠ none

theorem Resolution.wellFormed_empty : WellFormed ∅ := Sheet.RuleSet.wellFormed_empty

theorem wellFormed_resolve [Libraries] (fetch : Fetcher) (sheets : List Stylesheet) :
    (resolve fetch sheets).WellFormed := by
  rw [resolve_eq]
  refine Sheet.RuleSet.join_induction Sheet.RuleSet.wellFormed_empty (fun a b ha hb => ?_) ?_
  · exact Sheet.RuleSet.wellFormed_append_iff.mpr ⟨ha, hb⟩
  · intro rules mem
    obtain ⟨c, hc, rfl⟩ := List.mem_map.mp mem
    obtain ⟨sheet, -, contributes⟩ := List.mem_filterMap.mp hc
    obtain ⟨css, read⟩ := exists_read_of_contribution? contributes
    rw [read]
    refine (Sheet.wellFormed_read css c.file).mono ?_
    rintro file rfl
    exact Index.file?_gather_of_mem hc ∅

/-! ## Sheets by themselves -/

variable [Libraries]

theorem mem_plain_resolve_iff {sheets : List Stylesheet} {rule : Sheet.PlainRule} :
    rule ∈ (resolve fetch sheets).rules.plain ↔
      ∃ sheet ∈ sheets, ∃ c, contribution? fetch sheet = some c ∧ rule ∈ c.rules.plain := by
  rw [resolve_eq, Sheet.RuleSet.bucket_join rfl Sheet.RuleSet.plain_append, List.flatMap_map]
  simp only [contributions, List.mem_flatMap, List.mem_filterMap]
  constructor
  · rintro ⟨c, ⟨sheet, hs, hc⟩, hr⟩
    exact ⟨sheet, hs, c, hc, hr⟩
  · rintro ⟨sheet, hs, c, hc, hr⟩
    exact ⟨c, ⟨sheet, hs, hc⟩, hr⟩

theorem authors_resolve_iff {sheets : List Stylesheet} {file p : String} :
    (resolve fetch sheets).index.Authors file p ↔
      ∃ sheet ∈ sheets, ∃ c, contribution? fetch sheet = some c ∧ c.file = file ∧
        p ∈ c.authored := by
  rw [resolve_eq, Index.authors_gather_iff]
  simp only [contributions, List.mem_filterMap]
  constructor
  · rintro ⟨c, ⟨sheet, hs, hc⟩, hp⟩
    exact ⟨sheet, hs, c, hc, hp⟩
  · rintro ⟨sheet, hs, c, hc, hp⟩
    exact ⟨c, ⟨sheet, hs, hc⟩, hp⟩

/-- A rule of a sheet with an address is from the file of that name. -/
theorem file_of_mem_plain {href : String} {rule : Sheet.PlainRule}
    (h : rule ∈ (resolve fetch [.external href]).rules.plain) : rule.file = fileName href := by
  obtain ⟨sheet, mem, c, contributes, hr⟩ := mem_plain_resolve_iff.mp h
  cases List.mem_singleton.mp mem
  obtain ⟨css, read⟩ := exists_read_of_contribution? contributes
  rw [read] at hr
  exact ((Sheet.wellFormed_read css c.file).plain rule hr).2.2.trans
    (file_of_contribution?_external contributes)

end AuthoredStyle.SourceMap
