import Mathlib.Data.Prod.Lex
import Mathlib.Data.List.Nodup
import AuthoredStyle.Proofs.Cascade.Sides

/-!
# The last declaration is the heaviest

Declarations that compete for a property of an element have weights: importance
first, then whether they are the element's own, the specificity and the source
order of their rule, and their position. The declared value is that of the
heaviest. It is found by sorting and overwriting, so what has to be seen is that,
of the declarations in the order in which they apply, the last one that sets a
property is the heaviest that does.

The order is not quite the order of weights: a rule that matches through two
selectors of one specificity applies twice, and its first declarations come back
behind its last ones. Each of them is only repeated, which is why the statement
about the last one still holds. When a selector matches is not looked into.
-/

namespace AuthoredStyle.Cascade

open Dom (Place)

/-! ## Weights -/

def Specificity.key (s : Specificity) : ℕ ×ₗ ℕ ×ₗ ℕ := toLex (s.ids, toLex (s.classes, s.tags))

/-- What one declaration is compared by. -/
structure Weight where
  important : Bool
  /-- Declared by the element itself. -/
  own : Bool
  specificity : Specificity
  order : ℕ
  position : ℕ

namespace Weight

/-- All but importance. -/
def standing (w : Weight) : Bool ×ₗ ((ℕ ×ₗ ℕ ×ₗ ℕ) ×ₗ ℕ) ×ₗ ℕ :=
  toLex (w.own, toLex (toLex (w.specificity.key, w.order), w.position))

def key (w : Weight) : Bool ×ₗ Bool ×ₗ ((ℕ ×ₗ ℕ ×ₗ ℕ) ×ₗ ℕ) ×ₗ ℕ := toLex (w.important, w.standing)

theorem key_injective : Function.Injective key := by
  rintro ⟨i, o, ⟨a, b, c⟩, n, k⟩ ⟨i', o', ⟨a', b', c'⟩, n', k'⟩ same
  simp only [key, standing, Specificity.key, toLex_inj, Prod.mk.injEq] at same
  obtain ⟨rfl, rfl, ⟨⟨rfl, rfl, rfl⟩, rfl⟩, rfl⟩ := same
  rfl

instance : LinearOrder Weight := LinearOrder.lift' key key_injective

theorem le_iff {v w : Weight} :
    v ≤ w ↔ v.important < w.important ∨ v.important = w.important ∧ v.standing ≤ w.standing :=
  Prod.Lex.toLex_le_toLex

end Weight

/-! ## What one declaration sets -/

/-- A shorthand of sides or axes gives each of its longhands a part of its value, if the value
has as many parts as it may have; anything else is set as it stands. -/
inductive Declaration.Sets (d : Declaration) : String → String → Prop where
  | part {parts : List String} {longhand v : String} : d.property ∈ composed →
      spread (Property.longhands d.property).length (components d.value) = some parts →
      (longhand, v) ∈ (Property.longhands d.property).zip parts → d.Sets longhand v
  | whole : (d.property ∈ composed →
      spread (Property.longhands d.property).length (components d.value) = none) →
      d.Sets d.property d.value

theorem expand_of_not_composed {property : String} (plain : property ∉ composed) (value : String) :
    expand property value = [(property, value)] := by
  simp only [composed, List.mem_cons, List.not_mem_nil, or_false, not_or] at plain
  obtain ⟨margin, padding, gap, overflow⟩ := plain
  unfold expand
  split <;> first | contradiction | rfl

theorem mem_expand_iff {d : Declaration} {property v : String} :
    (property, v) ∈ expand d.property d.value ↔ d.Sets property v := by
  by_cases short : d.property ∈ composed
  · rw [expand_eq short]
    cases spreads : spread (Property.longhands d.property).length (components d.value) with
    | some parts =>
      refine ⟨.part short spreads, fun sets => ?_⟩
      cases sets with
      | part _ spreads' mem =>
        rw [spreads] at spreads'
        cases spreads'
        exact mem
      | whole unfit => cases spreads.symm.trans (unfit short)
    | none =>
      rw [List.mem_singleton, Prod.mk.injEq]
      refine ⟨fun ⟨here, same⟩ => here ▸ same ▸ .whole fun _ => spreads, fun sets => ?_⟩
      cases sets with
      | part _ spreads' _ => cases spreads.symm.trans spreads'
      | whole _ => exact ⟨rfl, rfl⟩
  · rw [expand_of_not_composed short, List.mem_singleton, Prod.mk.injEq]
    refine ⟨fun ⟨here, same⟩ => here ▸ same ▸ .whole fun short' => (short short').elim,
      fun sets => ?_⟩
    cases sets with
    | part short' _ _ => exact (short short').elim
    | whole _ => exact ⟨rfl, rfl⟩

theorem expand_distinct (property value : String) :
    ((expand property value).map (·.1)).Nodup := by
  unfold expand
  split
  · split <;> simp [boxSides]
  · split <;> simp [boxSides]
  · unfold expand.pair
    split <;> simp
  · unfold expand.pair
    split <;> simp
  · simp

/-- The value that a declaration gives to a property. -/
def Declaration.valueFor? (d : Declaration) (property : String) : Option String :=
  ((expand d.property d.value).reverse.find? (·.1 = property)).map (·.2)

theorem valueFor?_eq_some_iff {d : Declaration} {property v : String} :
    d.valueFor? property = some v ↔ d.Sets property v := by
  rw [← mem_expand_iff, Declaration.valueFor?, Option.map_eq_some_iff]
  constructor
  · rintro ⟨e, found, rfl⟩
    have key : e.1 = property := by simpa using List.find?_some found
    have mem := List.mem_reverse.mp (List.mem_of_find?_eq_some found)
    rwa [← key]
  · intro mem
    have passes : ((expand d.property d.value).reverse.find? (·.1 = property)).isSome = true :=
      List.find?_isSome.mpr ⟨_, List.mem_reverse.mpr mem, by simp⟩
    obtain ⟨e, found⟩ := Option.isSome_iff_exists.mp passes
    have key : e.1 = property := by simpa using List.find?_some found
    have mem' := List.mem_reverse.mp (List.mem_of_find?_eq_some found)
    have same : e = (property, v) :=
      List.inj_on_of_nodup_map (expand_distinct d.property d.value) mem' mem key
    exact ⟨e, found, by rw [same]⟩

/-- Of declarations that apply in this order, the last one that sets a property counts. -/
theorem get?_foldl_expand (ds : List Declaration) (start : Dict String) (property : String) :
    (ds.foldl (fun values d =>
        (expand d.property d.value).foldl (fun values e => values.insert e.1 e.2) values)
      start).get? property =
      (ds.reverse.findSome? (·.valueFor? property)).or (start.get? property) := by
  induction ds generalizing start with
  | nil => rfl
  | cons d ds ih =>
    rw [List.foldl_cons, ih, Dict.get?_foldl_insert, ← Declaration.valueFor?, List.reverse_cons,
      List.findSome?_append, Option.or_assoc]
    simp

/-! ## The order in which declarations apply -/

section Order

variable {α κ : Type}

/-- Whatever is looked for, of the items that pass the last one has the greatest key. -/
def LastGreatest [LE κ] (key : α → κ) (l : List α) : Prop :=
  ∀ (q : α → Bool) (e : α), l.reverse.find? q = some e → ∀ x ∈ l, q x = true → key x ≤ key e

theorem lastGreatest_nil [LE κ] (key : α → κ) : LastGreatest key [] := by
  intro q e found
  simp at found

/-- An item of the first part may be greater than one of the second if it comes back. -/
theorem LastGreatest.append [LE κ] {key : α → κ} {xs ys : List α} (hx : LastGreatest key xs)
    (hy : LastGreatest key ys) (across : ∀ x ∈ xs, ∀ y ∈ ys, key x ≤ key y ∨ x ∈ ys) :
    LastGreatest key (xs ++ ys) := by
  intro q e found x hx' passes
  rw [List.reverse_append, List.find?_append] at found
  cases second : ys.reverse.find? q with
  | none =>
    rw [second, Option.none_or] at found
    have none : ∀ y ∈ ys, ¬ q y = true := by simpa using second
    rcases List.mem_append.mp hx' with first | behind
    · exact hx q e found x first passes
    · exact absurd passes (none x behind)
  | some e' =>
    rw [second, Option.some_or] at found
    cases found
    rcases List.mem_append.mp hx' with first | behind
    · have here := List.mem_reverse.mp (List.mem_of_find?_eq_some second)
      rcases across x first e here with below | again
      · exact below
      · exact hy q e second x again passes
    · exact hy q e second x behind passes

theorem LastGreatest.filter [LE κ] {key : α → κ} {l : List α} (h : LastGreatest key l)
    (keep : α → Bool) : LastGreatest key (l.filter keep) := by
  intro q e found x hx passes
  rw [← List.filter_reverse, List.find?_filter] at found
  obtain ⟨hx, kept⟩ := List.mem_filter.mp hx
  exact h _ e found x hx (by simp [kept, passes])

theorem lastGreatest_of_pairwise [Preorder κ] {key : α → κ} {l : List α}
    (growing : l.Pairwise (key · ≤ key ·)) : LastGreatest key l := by
  induction l with
  | nil => exact lastGreatest_nil key
  | cons a l ih =>
    obtain ⟨first, rest⟩ := List.pairwise_cons.mp growing
    have head : LastGreatest key [a] := by
      intro q e found x hx _
      have same := List.mem_of_find?_eq_some found
      rw [List.mem_singleton.mp same, List.mem_singleton.mp hx]
    refine head.append (ih rest) ?_
    intro x hx y hy
    exact .inl (List.mem_singleton.mp hx ▸ first y hy)

end Order

/-! ## Weighing the declarations that apply -/

/-- The declarations of rules that hold of an element and those of its own, with their weights. -/
inductive Competes (rules : List Rule) (own : List Declaration) (p : Place) :
    Weight → Declaration → Prop where
  | rule {r : Rule} {i : ℕ} {d : Declaration} : r ∈ rules → r.selector.holdsAt p = true →
      r.declarations[i]? = some d →
      Competes rules own p ⟨d.important, false, r.specificity, r.order, i⟩ d
  | own {i : ℕ} {d : Declaration} : own[i]? = some d →
      Competes rules own p ⟨d.important, true, ⟨0, 0, 0⟩, 0, i⟩ d

/-- A value that one of these declarations, of this weight, gives to a property. -/
def Offers (competes : Weight → Declaration → Prop) (property : String) (w : Weight)
    (v : String) : Prop :=
  ∃ d, competes w d ∧ d.Sets property v

/-- Declarations of one origin, in order. -/
def weigh (own : Bool) (specificity : Specificity) (order : ℕ) (ds : List Declaration) :
    List (Weight × Declaration) :=
  ds.zipIdx.map fun (d, i) => (⟨d.important, own, specificity, order, i⟩, d)

theorem mem_weigh {own : Bool} {specificity : Specificity} {order : ℕ} {ds : List Declaration}
    {w : Weight} {d : Declaration} :
    (w, d) ∈ weigh own specificity order ds ↔
      ∃ i, ds[i]? = some d ∧ w = ⟨d.important, own, specificity, order, i⟩ := by
  simp only [weigh, List.mem_map, Prod.exists, List.mem_zipIdx_iff_getElem?, Prod.mk.injEq]
  constructor
  · rintro ⟨d, i, found, rfl, rfl⟩
    exact ⟨i, found, rfl⟩
  · rintro ⟨i, found, rfl⟩
    exact ⟨d, i, found, rfl, rfl⟩

theorem map_snd_weigh (own : Bool) (specificity : Specificity) (order : ℕ)
    (ds : List Declaration) : (weigh own specificity order ds).map (·.2) = ds := by
  rw [weigh, List.map_map]
  exact List.zipIdx_map_fst 0 ds

theorem weigh_growing (own : Bool) (specificity : Specificity) (order : ℕ)
    (ds : List Declaration) :
    (weigh own specificity order ds).Pairwise (·.1.standing ≤ ·.1.standing) := by
  rw [weigh, List.pairwise_map]
  have places : (ds.zipIdx.map Prod.snd).Pairwise (· < ·) := by
    rw [List.zipIdx_map_snd]
    exact List.pairwise_lt_range'
  refine (List.pairwise_map.mp places).imp ?_
  intro x y before
  simp only [Weight.standing, Prod.Lex.toLex_le_toLex]
  simp [before.le]

/-- Specificity and source order. -/
def Rule.rank (r : Rule) : (ℕ ×ₗ ℕ ×ₗ ℕ) ×ₗ ℕ := toLex (r.specificity.key, r.order)

theorem before_iff {a b : Rule} : a.before b = true ↔ a.rank ≤ b.rank := by
  simp only [Rule.before, smaller, Rule.rank, Specificity.key, Prod.Lex.toLex_le_toLex,
    Prod.Lex.toLex_lt_toLex, toLex_inj, Prod.mk.injEq, Bool.or_eq_true, Bool.and_eq_true,
    decide_eq_true_eq]
  omega

def weighRule (r : Rule) : List (Weight × Declaration) :=
  weigh false r.specificity r.order r.declarations

theorem standing_of_mem_weighRule {r : Rule} {e : Weight × Declaration} (he : e ∈ weighRule r) :
    ∃ i, e.1.standing = toLex (false, toLex (r.rank, i)) := by
  obtain ⟨w, d⟩ := e
  obtain ⟨i, -, rfl⟩ := mem_weigh.mp he
  exact ⟨i, rfl⟩

/-- Rules of one place in the sources have the same declarations. -/
def Consistent (rules : List Rule) : Prop :=
  ∀ a ∈ rules, ∀ b ∈ rules, a.order = b.order → a.declarations = b.declarations

theorem Consistent.weighRule_eq {rules : List Rule} (consistent : Consistent rules) {a b : Rule}
    (ha : a ∈ rules) (hb : b ∈ rules) (same : a.rank = b.rank) : weighRule a = weighRule b := by
  obtain ⟨spec, order⟩ := Prod.mk.inj (toLex_inj.mp same)
  have specificity : a.specificity = b.specificity := by
    simp only [Specificity.key, toLex_inj, Prod.mk.injEq] at spec
    cases h : a.specificity
    cases h' : b.specificity
    simp_all
  rw [weighRule, weighRule, specificity, order, consistent a ha b hb order]

/-- By induction on the sorted rules: a first rule that ranks with a later one is that
rule once more. -/
theorem lastGreatest_rules {rules : List Rule} (consistent : Consistent rules)
    (sorted : rules.Pairwise fun a b => a.before b = true) :
    LastGreatest (·.1.standing) (rules.flatMap weighRule) := by
  induction rules with
  | nil => exact lastGreatest_nil _
  | cons r rules ih =>
    obtain ⟨first, sorted⟩ := List.pairwise_cons.mp sorted
    have rest := ih (fun a ha b hb => consistent a (List.mem_cons_of_mem r ha) b
      (List.mem_cons_of_mem r hb)) sorted
    rw [List.flatMap_cons]
    refine (lastGreatest_of_pairwise (weigh_growing ..)).append rest ?_
    intro x hx y hy
    obtain ⟨r', hr', hy⟩ := List.mem_flatMap.mp hy
    rcases lt_or_eq_of_le (before_iff.mp (first r' hr')) with below | same
    · obtain ⟨i, standing⟩ := standing_of_mem_weighRule hx
      obtain ⟨j, standing'⟩ := standing_of_mem_weighRule hy
      left
      simp only [standing, standing', Prod.Lex.toLex_le_toLex]
      exact .inr ⟨trivial, .inl below⟩
    · right
      have again := consistent.weighRule_eq List.mem_cons_self (List.mem_cons_of_mem r hr') same
      exact List.mem_flatMap.mpr ⟨r', hr', again ▸ hx⟩

/-- All declarations of matching rules and of the element, important ones among the
others. -/
def weighedAll (matching : List Rule) (own : List Declaration) : List (Weight × Declaration) :=
  (matching.mergeSort Rule.before).flatMap weighRule ++ weigh true ⟨0, 0, 0⟩ 0 own

/-- The declarations in the order in which they apply, with their weights. -/
def weighed (matching : List Rule) (own : List Declaration) : List (Weight × Declaration) :=
  (weighedAll matching own).filter (!·.1.important) ++
    (weighedAll matching own).filter (·.1.important)

theorem mem_weighed_iff {rules : List Rule} {own : List Declaration} {p : Place}
    {w : Weight} {d : Declaration} :
    (w, d) ∈ weighed (rules.filter fun r => r.selector.holdsAt p) own ↔
      Competes rules own p w d := by
  have all : (w, d) ∈ weighed (rules.filter fun r => r.selector.holdsAt p) own ↔
      (w, d) ∈ weighedAll (rules.filter fun r => r.selector.holdsAt p) own := by
    cases important : w.important <;> simp [weighed, important]
  rw [all, weighedAll, List.mem_append, List.mem_flatMap, mem_weigh]
  simp only [List.mem_mergeSort, List.mem_filter]
  constructor
  · rintro (⟨r, ⟨hr, matched⟩, he⟩ | ⟨i, found, rfl⟩)
    · obtain ⟨i, found, rfl⟩ := mem_weigh.mp he
      exact .rule hr matched found
    · exact .own found
  · rintro (⟨hr, matched, found⟩ | found)
    · exact .inl ⟨_, ⟨hr, matched⟩, mem_weigh.mpr ⟨_, found, rfl⟩⟩
    · exact .inr ⟨_, found, rfl⟩

theorem map_snd_weighed (matching : List Rule) (own : List Declaration) :
    (weighed matching own).map (·.2) = applied matching own := by
  have flags : ∀ e ∈ weighedAll matching own, e.1.important = e.2.important := by
    rintro ⟨w, d⟩ he
    rcases List.mem_append.mp he with he | he
    · obtain ⟨r, -, he⟩ := List.mem_flatMap.mp he
      obtain ⟨i, -, rfl⟩ := mem_weigh.mp he
      rfl
    · obtain ⟨i, -, rfl⟩ := mem_weigh.mp he
      rfl
  have all : (weighedAll matching own).map (·.2) =
      (matching.mergeSort Rule.before).flatMap (·.declarations) ++ own := by
    rw [weighedAll, List.map_append, List.map_flatMap, map_snd_weigh]
    simp only [weighRule, map_snd_weigh]
  have part (test : Bool → Bool) :
      ((weighedAll matching own).filter (test ·.1.important)).map (·.2) =
        ((weighedAll matching own).map (·.2)).filter (test ·.important) := by
    rw [List.filter_map]
    congr 1
    exact List.filter_congr fun e he => by simp [flags e he]
  rw [weighed, List.map_append, applied, ← all]
  exact congrArg₂ (· ++ ·) (part (!·)) (part id)

theorem LastGreatest.of_standing {l : List (Weight × Declaration)}
    (h : LastGreatest (·.1.standing) l) (b : Bool) (flags : ∀ e ∈ l, e.1.important = b) :
    LastGreatest (·.1) l := by
  intro q e found x hx passes
  have he := List.mem_reverse.mp (List.mem_of_find?_eq_some found)
  exact Weight.le_iff.mpr (.inr ⟨by rw [flags x hx, flags e he], h q e found x hx passes⟩)

theorem lastGreatest_weighed {matching : List Rule} (consistent : Consistent matching)
    (own : List Declaration) : LastGreatest (·.1) (weighed matching own) := by
  have sorted : (matching.mergeSort Rule.before).Pairwise fun a b => a.before b = true := by
    refine List.pairwise_mergeSort ?_ ?_ matching
    · intro a b c hab hbc
      exact before_iff.mpr (le_trans (before_iff.mp hab) (before_iff.mp hbc))
    · intro a b
      rcases le_total a.rank b.rank with le | le
      · simp [before_iff.mpr le]
      · simp [before_iff.mpr le]
  have rules : LastGreatest (·.1.standing) ((matching.mergeSort Rule.before).flatMap weighRule) := by
    refine lastGreatest_rules (fun a ha b hb => ?_) sorted
    exact consistent a (List.mem_mergeSort.mp ha) b (List.mem_mergeSort.mp hb)
  have all : LastGreatest (·.1.standing) (weighedAll matching own) := by
    refine rules.append (lastGreatest_of_pairwise (weigh_growing ..)) ?_
    rintro ⟨v, d⟩ hx ⟨w, d'⟩ hy
    obtain ⟨r, -, hx⟩ := List.mem_flatMap.mp hx
    obtain ⟨i, -, rfl⟩ := mem_weigh.mp hx
    obtain ⟨j, -, rfl⟩ := mem_weigh.mp hy
    exact .inl (Prod.Lex.toLex_le_toLex.mpr (.inl Bool.false_lt_true))
  refine ((all.filter _).of_standing false ?_).append ((all.filter _).of_standing true ?_) ?_
  · intro x hx
    simpa using (List.mem_filter.mp hx).2
  · intro x hx
    exact (List.mem_filter.mp hx).2
  · intro x hx y hy
    have normal : x.1.important = false := by simpa using (List.mem_filter.mp hx).2
    have important : y.1.important = true := (List.mem_filter.mp hy).2
    exact .inl (Weight.le_iff.mpr (.inl (normal ▸ important ▸ Bool.false_lt_true)))

/-! ## The declared value -/

theorem Competes.unique {rules : List Rule} {own : List Declaration} {p : Place} {w : Weight}
    {d d' : Declaration} (consistent : Consistent rules) (h : Competes rules own p w d)
    (h' : Competes rules own p w d') : d = d' := by
  generalize same : w = w' at h'
  cases h with
  | rule hr _ found =>
    cases h' with
    | rule hr' _ found' =>
      obtain ⟨-, -, -, order, rfl⟩ := Weight.mk.inj same
      rw [consistent _ hr _ hr' order, found'] at found
      exact (Option.some.inj found).symm
    | own _ => cases (Weight.mk.inj same).2.1
  | own found =>
    cases h' with
    | rule _ _ _ => cases (Weight.mk.inj same).2.1
    | own found' =>
      obtain ⟨-, -, -, -, rfl⟩ := Weight.mk.inj same
      rw [found'] at found
      exact (Option.some.inj found).symm

section Value

variable {rules : List Rule} {own : List Declaration} {p : Place} {property : String}

/-- The last of the declarations that set the property. -/
def deciding? (rules : List Rule) (own : List Declaration) (p : Place) (property : String) :
    Option (Weight × Declaration) :=
  (weighed (rules.filter fun r => r.selector.holdsAt p) own).reverse.find?
    fun e => (e.2.valueFor? property).isSome

theorem findSome?_eq_find?_bind {α β : Type} (f : α → Option β) (l : List α) :
    l.findSome? f = (l.find? fun a => (f a).isSome).bind f := by
  induction l with
  | nil => rfl
  | cons a l ih => cases h : f a <;> simp [h, ih]

theorem get?_declaredValues :
    (declaredValues rules own p).get? property =
      (deciding? rules own p property).bind (·.2.valueFor? property) := by
  rw [declaredValues, get?_foldl_expand, ← map_snd_weighed, ← List.map_reverse, List.findSome?_map,
    findSome?_eq_find?_bind]
  exact Option.or_none

theorem competes_of_deciding? {e : Weight × Declaration}
    (found : deciding? rules own p property = some e) :
    Competes rules own p e.1 e.2 ∧ ∃ v, e.2.valueFor? property = some v := by
  have sets : (e.2.valueFor? property).isSome = true := by simpa using List.find?_some found
  exact ⟨mem_weighed_iff.mp (List.mem_reverse.mp (List.mem_of_find?_eq_some found)),
    Option.isSome_iff_exists.mp sets⟩

theorem exists_deciding? {w : Weight} {v : String} (offer : Offers (Competes rules own p) property w v) :
    ∃ e, deciding? rules own p property = some e := by
  obtain ⟨d, competes, value⟩ := offer
  refine Option.isSome_iff_exists.mp (List.find?_isSome.mpr ⟨(w, d), ?_, ?_⟩)
  · exact List.mem_reverse.mpr (mem_weighed_iff.mpr competes)
  · exact Option.isSome_iff_exists.mpr ⟨v, valueFor?_eq_some_iff.mpr value⟩

theorem offer_le_deciding? (consistent : Consistent rules) {e : Weight × Declaration}
    (found : deciding? rules own p property = some e) {w : Weight} {v : String}
    (offer : Offers (Competes rules own p) property w v) : w ≤ e.1 := by
  obtain ⟨d, competes, value⟩ := offer
  have agree : Consistent (rules.filter fun r => r.selector.holdsAt p) := fun a ha b hb =>
    consistent a (List.mem_of_mem_filter ha) b (List.mem_of_mem_filter hb)
  refine lastGreatest_weighed agree own _ e found (w, d) (mem_weighed_iff.mpr competes) ?_
  exact Option.isSome_iff_exists.mpr ⟨v, valueFor?_eq_some_iff.mpr value⟩

theorem get?_declaredValues_eq_some_iff (consistent : Consistent rules) {v : String} :
    (declaredValues rules own p).get? property = some v ↔
      ∃ w, Offers (Competes rules own p) property w v ∧
        ∀ w' v', Offers (Competes rules own p) property w' v' → w' ≤ w := by
  rw [get?_declaredValues, Option.bind_eq_some_iff]
  constructor
  · rintro ⟨e, found, value⟩
    exact ⟨e.1, ⟨e.2, (competes_of_deciding? found).1, valueFor?_eq_some_iff.mp value⟩,
      fun w' v' offer => offer_le_deciding? consistent found offer⟩
  · rintro ⟨w, offer, greatest⟩
    obtain ⟨e, found⟩ := exists_deciding? offer
    obtain ⟨competes, v', value⟩ := competes_of_deciding? found
    have same : e.1 = w :=
      le_antisymm (greatest e.1 v' ⟨e.2, competes, valueFor?_eq_some_iff.mp value⟩)
        (offer_le_deciding? consistent found offer)
    obtain ⟨d, competes', given⟩ := offer
    have own : e.2 = d := (same ▸ competes).unique consistent competes'
    exact ⟨e, found, own ▸ valueFor?_eq_some_iff.mpr given⟩

theorem exists_get?_declaredValues_iff :
    (∃ v, (declaredValues rules own p).get? property = some v) ↔
      ∃ w v, Offers (Competes rules own p) property w v := by
  rw [get?_declaredValues]
  constructor
  · rintro ⟨v, found⟩
    obtain ⟨e, found, value⟩ := Option.bind_eq_some_iff.mp found
    exact ⟨e.1, v, e.2, (competes_of_deciding? found).1, valueFor?_eq_some_iff.mp value⟩
  · rintro ⟨w, v, offer⟩
    obtain ⟨e, found⟩ := exists_deciding? offer
    obtain ⟨v', value⟩ := (competes_of_deciding? found).2
    exact ⟨v', Option.bind_eq_some_iff.mpr ⟨e, found, value⟩⟩

/-- Only which rules there are counts, not how they are listed. -/
theorem Offers.of_perm {listed : List Rule} {w : Weight} {v : String} (same : listed.Perm rules)
    (offer : Offers (Competes listed own p) property w v) : Offers (Competes rules own p) property w v := by
  obtain ⟨d, competes, value⟩ := offer
  refine ⟨d, ?_, value⟩
  cases competes with
  | rule hr matched found => exact .rule (same.mem_iff.mp hr) matched found
  | own found => exact .own found

theorem declaredValues_perm (consistent : Consistent rules) {listed : List Rule}
    (same : listed.Perm rules) : declaredValues listed own p = declaredValues rules own p := by
  have agree : Consistent listed := fun a ha b hb =>
    consistent a (same.mem_iff.mp ha) b (same.mem_iff.mp hb)
  have offers (property : String) (w : Weight) (v : String) :
      Offers (Competes listed own p) property w v ↔ Offers (Competes rules own p) property w v :=
    ⟨.of_perm same, .of_perm same.symm⟩
  refine Dict.ext fun property => Option.ext fun v => ?_
  simp only [get?_declaredValues_eq_some_iff agree, get?_declaredValues_eq_some_iff consistent,
    offers]

end Value

end AuthoredStyle.Cascade
