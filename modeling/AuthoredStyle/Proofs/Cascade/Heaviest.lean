import Mathlib.Data.List.Rotate
import AuthoredStyle.Proofs.Cascade.Precedence
import AuthoredStyle.Proofs.Cascade.Specificity

/-!
# Which declaration counts

The rules of sheets that follow each other are weighed by what stands in the sheets: what the
selector asks for, the place of the rule in all of them together, and the place of the
declaration in the rule. An element's own declarations weigh more than all of these, and
important ones more than all others. The declared value of a property is what the heaviest
declaration gives to it that applies to the element and sets the property.

When a selector holds of an element is not looked into.
-/

namespace AuthoredStyle.Cascade

open Dom (Place)

/-! ## What a selector asks for -/

/-- How many ids the compounds ask for, how many classes and attributes, and how many tags. -/
def Complex.asked (s : Complex) : Specificity :=
  let compounds := s.key :: s.left.map (·.2)
  { ids := (compounds.filterMap (·.id)).length
    classes := (compounds.flatMap (·.classes.toList)).length +
      (compounds.flatMap (·.attributes)).length
    tags := (compounds.filterMap (·.tag)).length }

theorem total_specificity (cs : List Compound) :
    Specificity.total (cs.map Compound.specificity) =
      ⟨(cs.filterMap (·.id)).length,
        (cs.flatMap (·.classes.toList)).length + (cs.flatMap (·.attributes)).length,
        (cs.filterMap (·.tag)).length⟩ := by
  induction cs with
  | nil => rfl
  | cons c cs ih =>
    have whole : Specificity.total ((c :: cs).map Compound.specificity) =
        c.specificity.add (.total (cs.map Compound.specificity)) := rfl
    rw [whole, ih]
    simp only [Specificity.add, Compound.specificity, List.filterMap_cons, List.flatMap_cons,
      List.length_append, NameSet.size, Specificity.mk.injEq]
    refine ⟨?_, by omega, ?_⟩
    · cases c.id <;> simp [Nat.add_comm]
    · cases c.tag <;> simp [Nat.add_comm]

theorem specificity_eq_asked (s : Complex) : s.specificity = s.asked := by
  rw [specificity_eq_total, total_specificity, Complex.asked]

/-! ## Rules of sheets -/

theorem rulesOf_append (s t : StyleSheet) (first : ℕ) :
    rulesOf (s ++ t) first = rulesOf s first ++ rulesOf t (first + s.length) := by
  rw [rulesOf, List.zipIdx_append, List.flatMap_append]
  rfl

/-- Sheets that follow each other have the rules of one long sheet. -/
theorem rulesOfAll_eq (sheets : List StyleSheet) (first : ℕ) :
    rulesOfAll first sheets = rulesOf sheets.flatten first := by
  induction sheets generalizing first with
  | nil => rfl
  | cons s sheets ih => rw [rulesOfAll, ih, List.flatten_cons, rulesOf_append]

/-- A rule is a style rule at a place of the sheets with one of its selectors, if that can be
read. -/
theorem mem_rulesOfAll_iff {sheets : List StyleSheet} {first : ℕ} {r : Rule} :
    r ∈ rulesOfAll first sheets ↔
      ∃ k rule text selector, sheets.flatten[k]? = some rule ∧ text ∈ rule.selectors ∧
        Complex.ofText? text = some selector ∧ r = ⟨selector, rule.declarations, first + k⟩ := by
  simp only [rulesOfAll_eq, rulesOf, List.mem_flatMap, Prod.exists,
    List.mem_zipIdx_iff_le_and_getElem?_sub, List.mem_filterMap, Option.map_eq_some_iff]
  constructor
  · rintro ⟨rule, order, ⟨low, found⟩, text, listed, selector, read, rfl⟩
    exact ⟨order - first, rule, text, selector, found, listed, read, by rw [Nat.add_sub_of_le low]⟩
  · rintro ⟨k, rule, text, selector, found, listed, read, rfl⟩
    exact ⟨rule, first + k, ⟨Nat.le_add_right .., by rwa [Nat.add_sub_cancel_left]⟩, text, listed,
      selector, read, rfl⟩

theorem consistent_rulesOfAll (sheets : List StyleSheet) (first : ℕ) :
    Consistent (rulesOfAll first sheets) := by
  intro a ha b hb
  obtain ⟨k, rule, -, -, found, -, -, rfl⟩ := mem_rulesOfAll_iff.mp ha
  obtain ⟨k', rule', -, -, found', -, -, rfl⟩ := mem_rulesOfAll_iff.mp hb
  intro same
  obtain rfl := Nat.add_left_cancel same
  cases found.symm.trans found'
  rfl

/-! ## Declarations that apply -/

/-- The declarations that apply to an element, each with its weight: those of the style rules of
which a selector holds of it, counted from `first` on through all sheets, and its own. -/
inductive Applies (sheets : List StyleSheet) (first : ℕ) (own : List Declaration) (p : Place) :
    Weight → Declaration → Prop where
  | rule {k i : ℕ} {rule : StyleRule} {text : String} {selector : Complex} {d : Declaration} :
      sheets.flatten[k]? = some rule → text ∈ rule.selectors →
      Complex.ofText? text = some selector → selector.holdsAt p = true →
      rule.declarations[i]? = some d →
      Applies sheets first own p ⟨d.important, false, selector.asked, first + k, i⟩ d
  | own {i : ℕ} {d : Declaration} : own[i]? = some d →
      Applies sheets first own p ⟨d.important, true, ⟨0, 0, 0⟩, 0, i⟩ d

theorem competes_rulesOfAll (sheets : List StyleSheet) (first : ℕ) (own : List Declaration)
    (p : Place) :
    Competes (rulesOfAll first sheets) own p = Applies sheets first own p := by
  funext w d
  refine propext ⟨fun competes => ?_, fun applies => ?_⟩
  · cases competes with
    | rule hr matched found =>
      obtain ⟨k, rule, text, selector, there, listed, read, rfl⟩ := mem_rulesOfAll_iff.mp hr
      rw [Rule.specificity, specificity_eq_asked]
      exact .rule there listed read matched found
    | own found => exact .own found
  · cases applies with
    | @rule k i rule text selector d there listed read matched found =>
      have hr : ⟨selector, rule.declarations, first + k⟩ ∈ rulesOfAll first sheets :=
        mem_rulesOfAll_iff.mpr ⟨k, rule, text, selector, there, listed, read, rfl⟩
      rw [← specificity_eq_asked]
      exact .rule hr matched found
    | own found => exact .own found

/-- An element has a value for a property exactly when some declaration that applies
to it sets the property, and it is the value that the heaviest of them gives; in
which order the rules are listed does not matter. -/
theorem declaredValues_takes_heaviest (sheets : List StyleSheet) (first : ℕ)
    (own : List Declaration) (p : Place) :
    let rules := rulesOfAll first sheets
    let Offered := Offers (Applies sheets first own p)
    (∀ property, (∃ v, (declaredValues rules own p).get? property = some v) ↔
      ∃ w v, Offered property w v) ∧
      (∀ property v, (declaredValues rules own p).get? property = some v ↔
        ∃ w, Offered property w v ∧ ∀ w' v', Offered property w' v' → w' ≤ w) ∧
      ∀ listed : List Rule, listed.Perm rules →
        declaredValues listed own p = declaredValues rules own p := by
  intro rules Offered
  have consistent : Consistent rules := consistent_rulesOfAll sheets first
  have competing : Offers (Competes rules own p) = Offered :=
    congrArg Offers (competes_rulesOfAll sheets first own p)
  refine ⟨fun property => ?_, fun property v => ?_, fun _ same => declaredValues_perm consistent same⟩
  · rw [← competing]
    exact exists_get?_declaredValues_iff
  · rw [← competing]
    exact get?_declaredValues_eq_some_iff consistent

/-- A class comes before the tags that would overrule it by their order, and a longhand before
its shorthand. -/
def noteSheets : List StyleSheet :=
  [[⟨[".note"], [⟨"color", "red", false⟩, ⟨"padding-left", "3px", false⟩]⟩],
   [⟨[".note", "p"], [⟨"margin-top", "9px", true⟩, ⟨"padding", "1px 2px", false⟩]⟩,
    ⟨["p"], [⟨"color", "blue", false⟩, ⟨"width", "5px", false⟩, ⟨"height", "6px", false⟩]⟩],
   [⟨["p"], [⟨"height", "7px", false⟩, ⟨"height", "8px", false⟩]⟩]]

def noteRules : List Rule := rulesOfAll 0 noteSheets

/-- What the element declares itself. -/
def noteOwn : List Declaration := [⟨"margin", "4px", false⟩, ⟨"width", "20px", false⟩]

def note : Place := ⟨⟨{ name := "p", attributes := [("class", "note")] }, []⟩, []⟩

def noteValues : List (String × String) :=
  [("color", "red"), ("padding-left", "2px"), ("margin-top", "9px"), ("margin-left", "4px"),
   ("width", "20px"), ("height", "8px")]

theorem declaredValues_takes_heaviest_of_note :
    declaredValues (noteRules.rotate 2) noteOwn note = declaredValues noteRules noteOwn note ∧
      (∀ e ∈ noteValues, (declaredValues noteRules noteOwn note).get? e.1 = some e.2 ∧
        ∃ w, Offers (Applies noteSheets 0 noteOwn note) e.1 w e.2 ∧
          ∀ w' v', Offers (Applies noteSheets 0 noteOwn note) e.1 w' v' → w' ≤ w) ∧
      ¬ ∃ w v, Offers (Applies noteSheets 0 noteOwn note) "margin" w v := by
  obtain ⟨given, heaviest, listed⟩ := declaredValues_takes_heaviest noteSheets 0 noteOwn note
  have same := listed _ (noteRules.rotate_perm 2)
  -- The rules stand in the order of their weights once the first two come last.
  have values : (∀ e ∈ noteValues, (declaredValues noteRules noteOwn note).get? e.1 = some e.2) ∧
      (declaredValues noteRules noteOwn note).get? "margin" = none := by
    rw [noteRules, ← same, declaredValues, applied, List.mergeSort_of_pairwise (by decide +kernel)]
    decide +kernel
  refine ⟨same, fun e he => ⟨values.1 e he, (heaviest e.1 e.2).mp (values.1 e he)⟩, ?_⟩
  intro offered
  obtain ⟨v, value⟩ := (given "margin").mpr offered
  cases values.2.symm.trans value

end AuthoredStyle.Cascade
