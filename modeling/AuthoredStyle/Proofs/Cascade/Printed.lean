import AuthoredStyle.Proofs.Cascade.Specificity

/-!
# Printed selectors

A printer of style sheets writes a compound in one order: tag, id, classes, attributes. Such a
selector is read back as it was printed unless an attribute's value has a blank, which cuts the
compound into two words, or a closing bracket, which ends the attribute.
-/

namespace AuthoredStyle.Cascade

open Selector (compoundWords compoundsOf)

/-! ## Printing -/

structure PrintedCompound where
  tag : Option Name
  id : Option Name
  classes : List Name
  attributes : List (Name × Option (Comparison × QuotedValue))
  letter : ∀ name ∈ tag, name.text.head?.any Char.isAlpha = true
  asks : tag ≠ none ∨ id ≠ none ∨ classes ≠ [] ∨ attributes ≠ []

namespace PrintedCompound

variable (p : PrintedCompound)

def front : Front := p.tag.elim .none .tag

/-- The conditions behind the tag, attributes last. -/
def conditions : List Condition :=
  p.id.toList.map .id ++ (p.classes.map .cls ++ p.attributes.map fun a => .attr a.1 a.2)

def text : List Char := p.front.text ++ conditionsText p.conditions

/-- The quoted values. -/
def values : List QuotedValue := p.attributes.filterMap fun a => a.2.map (·.2)

/-- What is printed. -/
def asked : Compound where
  tag := p.tag.map fun name => .ofList (Text.lower name.text)
  id := p.id.map (.ofList ·.text)
  classes := .ofList (p.classes.map (.ofList ·.text))
  attributes := p.attributes.map fun a => attributeOf a.1 a.2

theorem tag?_front : p.front.tag? = p.asked.tag := by
  rw [front, asked]
  cases shape : p.tag with
  | none => rfl
  | some name => exact if_pos (p.letter name shape)

theorem mem_values {v : QuotedValue} : v ∈ p.values ↔ ∃ d ∈ p.conditions, v ∈ d.values := by
  have asksFor (a : Name × Option (Comparison × QuotedValue)) :
      v ∈ (Condition.attr a.1 a.2).values ↔ a.2.map (·.2) = some v := by
    obtain ⟨name, _ | ⟨how, w⟩⟩ := a
    · simp [Condition.values]
    · simp [Condition.values, eq_comm]
  constructor
  · intro hv
    obtain ⟨a, ha, here⟩ := List.mem_filterMap.mp hv
    refine ⟨.attr a.1 a.2, ?_, (asksFor a).mpr here⟩
    rw [conditions, List.mem_append, List.mem_append]
    exact .inr (.inr (List.mem_map_of_mem ha))
  · rintro ⟨d, hd, hv⟩
    simp only [conditions, List.mem_append, List.mem_map] at hd
    rcases hd with ⟨name, -, rfl⟩ | ⟨name, -, rfl⟩ | ⟨a, ha, rfl⟩
    · cases hv
    · cases hv
    · exact List.mem_filterMap.mpr ⟨a, ha, (asksFor a).mp hv⟩

theorem text_ne_nil : p.text ≠ [] := by
  have shown (d : Condition) : d.text ≠ [] := by cases d <;> simp [Condition.text]
  intro none
  obtain ⟨noFront, noConditions⟩ := List.append_eq_nil_iff.mp none
  have conditions : p.conditions = [] := by
    rw [List.eq_nil_iff_forall_not_mem]
    intro d hd
    exact shown d (List.flatMap_eq_nil_iff.mp noConditions d hd)
  have rest : p.id = .none ∧ p.classes = [] ∧ p.attributes = [] := by
    simpa [PrintedCompound.conditions] using conditions
  have tag : p.tag = .none := by
    cases shape : p.tag with
    | none => rfl
    | some name =>
      rw [front, shape] at noFront
      exact absurd noFront name.ne_nil
  rcases p.asks with some | some | some | some
  · exact some tag
  · exact some rest.1
  · exact some rest.2.1
  · exact some rest.2.2

theorem idNames_conditions : idNames p.conditions = (p.id.map (.ofList ·.text)).toList := by
  cases shape : p.id <;> simp [conditions, idNames, shape]

theorem classNames_conditions : classNames p.conditions = p.classes.map (.ofList ·.text) := by
  cases shape : p.id <;> simp [conditions, classNames, shape]

theorem attributeTests_conditions : attributeTests p.conditions = p.asked.attributes := by
  cases shape : p.id <;> simp [conditions, attributeTests, asked, shape]

theorem foldl_ask_conditions :
    p.conditions.foldl Condition.ask { tag := p.front.tag? } = p.asked := by
  rw [foldl_ask, p.idNames_conditions, p.classNames_conditions, p.attributeTests_conditions,
    tag?_front, asked]
  cases p.id <;> rfl

/-- A printed compound without closing brackets in its values is read as it was printed. -/
theorem ofText_text (closed : ∀ v ∈ p.values, ']' ∉ v.text) : Compound.ofText p.text = p.asked := by
  rw [text, ofText_written p.front fun d hd v hv => closed v (p.mem_values.mpr ⟨d, hd, hv⟩),
    foldl_ask_conditions]

theorem isCompoundWord_text (solid : ∀ v ∈ p.values, ∀ c ∈ v.text, Text.isBlank c = false) :
    IsCompoundWord p.text :=
  isCompoundWord_written (fun d hd v hv => solid v (p.mem_values.mpr ⟨d, hd, hv⟩)) p.text_ne_nil

/-! ## Blanks -/

theorem compoundWords_ne_nil {s : List Char} {c : Char} (hc : c ∈ s)
    (visible : Text.isBlank c = false) (other : c ∉ ['>', '+', '~']) :
    compoundWords (Text.words s) ≠ [] := by
  obtain ⟨w, hw, inside⟩ := Text.exists_mem_runs visible hc
  refine List.ne_nil_of_mem (List.mem_filter.mpr ⟨hw, ?_⟩)
  rw [combinator?_eq_none inside other]
  rfl

theorem one_le_compoundWords : 1 ≤ (compoundWords (Text.words p.text)).length := by
  obtain ⟨c, rest, shape, visible, other⟩ := exists_cons_written p.text_ne_nil
  refine List.length_pos_iff.mpr (compoundWords_ne_nil (c := c) ?_ visible other)
  rw [text, shape]
  exact List.mem_cons_self

/-- A compound with a value ends in a closing bracket. -/
theorem exists_text_snoc {v : QuotedValue} (hv : v ∈ p.values) : ∃ s, p.text = s ++ [']'] := by
  have some : p.attributes ≠ [] := by
    intro none
    rw [values, none] at hv
    cases hv
  obtain ⟨front, last, shape⟩ : ∃ front last, p.attributes = front ++ [last] :=
    ⟨_, _, (List.dropLast_append_getLast some).symm⟩
  refine ⟨p.front.text ++ conditionsText (p.id.toList.map .id ++ (p.classes.map .cls ++
    front.map fun a => .attr a.1 a.2)) ++ '[' :: attributeBody last.1 last.2, ?_⟩
  simp [text, conditions, conditionsText, shape, Condition.text]

theorem value_subset_text {v : QuotedValue} (hv : v ∈ p.values) : v.text ⊆ p.text := by
  intro c hc
  obtain ⟨a, ha, here⟩ := List.mem_filterMap.mp hv
  obtain ⟨name, _ | ⟨how, w⟩⟩ := a
  · cases here
  · obtain rfl : w = v := by simpa using here
    refine List.mem_append_right _ (List.mem_flatMap.mpr ⟨.attr name (some (how, w)), ?_, ?_⟩)
    · rw [conditions, List.mem_append, List.mem_append]
      exact .inr (.inr (List.mem_map_of_mem ha))
    · simp [Condition.text, attributeBody, hc]

/-- A blank in a value cuts the compound: what is in front of it starts no combinator, and what
is behind it has the closing bracket. -/
theorem two_le_compoundWords {v : QuotedValue} (hv : v ∈ p.values) {c : Char} (hc : c ∈ v.text)
    (blank : Text.isBlank c = true) : 2 ≤ (compoundWords (Text.words p.text)).length := by
  obtain ⟨first, rest, starts, visible, other⟩ := exists_cons_written p.text_ne_nil
  obtain ⟨s, ends⟩ := p.exists_text_snoc hv
  obtain ⟨a, b, cut⟩ := List.append_of_mem (p.value_subset_text hv hc)
  have front : first ∈ a := by
    cases a with
    | nil =>
      have same : first = c := by
        have whole := starts.symm.trans cut
        exact (List.cons.inj whole).1
      rw [same, blank] at visible
      cases visible
    | cons d a =>
      have whole := starts.symm.trans cut
      rw [(List.cons.inj whole).1]
      exact List.mem_cons_self
  have back : ']' ∈ b := by
    rcases List.eq_nil_or_concat b with rfl | ⟨b, d, rfl⟩
    · have whole := ends.symm.trans cut
      have same : ']' = c := by simpa using (List.append_inj' whole rfl).2
      rw [← same] at blank
      cases blank
    · have whole : s ++ [']'] = (a ++ c :: b) ++ [d] := by rw [← ends, cut]; simp
      have same : ']' = d := by simpa using (List.append_inj' whole rfl).2
      rw [same, List.concat_eq_append]
      exact List.mem_append_right _ (List.mem_singleton_self d)
  have left := List.length_pos_iff.mpr (compoundWords_ne_nil front visible other)
  have right := List.length_pos_iff.mpr (compoundWords_ne_nil back rfl (by decide))
  have both : compoundWords (Text.words p.text) =
      compoundWords (Text.words a) ++ compoundWords (Text.words b) := by
    rw [cut, Text.words_append_blank a b blank]
    exact List.filter_append ..
  rw [both, List.length_append]
  omega

/-! ## Closing brackets -/

/-- Attributes asked for are not taken back. -/
theorem attributes_conditions (c : Compound) (s : List Char) :
    c.attributes <+: (c.conditions s).attributes := by
  have id (c : Compound) (name : List Char) : (c.askId name).attributes = c.attributes := by
    rw [Compound.askId]
    split <;> rfl
  have cls (c : Compound) (name : List Char) : (c.askClass name).attributes = c.attributes := by
    rw [Compound.askClass]
    split <;> rfl
  have attr (c : Compound) (body : List Char) :
      c.attributes <+: (c.askAttribute body).attributes := by
    rw [Compound.askAttribute]
    split
    · exact List.prefix_append ..
    · exact List.prefix_rfl
  induction c, s using Compound.conditions.induct with
  | case1 c => simp [Compound.conditions]
  | case2 c s ih => rw [Compound.conditions, ← id c]; exact ih
  | case3 c s ih => rw [Compound.conditions, ← cls c]; exact ih
  | case4 c s ih => rw [Compound.conditions]; exact (attr c _).trans ih
  | case5 c d s noId noClass noAttribute ih => rwa [Compound.conditions] <;> assumption

/-- An attribute is read as far as the first closing bracket in its value. -/
theorem attributes_cut (c : Compound) (name : Name) (how : Comparison) {w : QuotedValue}
    {v₁ v₂ : List Char} (cut : w.text = v₁ ++ ']' :: v₂) (absent : ']' ∉ v₁)
    (solid : ∀ d ∈ w.text, Text.isBlank d = false) (after : List Condition) :
    c.attributes ++ [⟨.ofList name.text, some (how, .ofList v₁)⟩] <+:
      (c.conditions (conditionsText (.attr name (some (how, w)) :: after))).attributes := by
  have front : ∀ d ∈ v₁, d ∈ w.text := fun d hd => by rw [cut]; exact List.mem_append_left _ hd
  have visible : Text.Solid ('"' :: v₁) :=
    ⟨by simp, List.forall_mem_cons.mpr ⟨rfl, fun d hd => solid d (front d hd)⟩⟩
  have body : attributeTest? (name.text ++ how.mark ++ '=' :: '"' :: v₁) =
      some ⟨.ofList name.text, some (how, .ofList v₁)⟩ := by
    have opened := attributeTest?_opened name how
      (fun d hd => w.isQuote_eq_false d (front d hd)) (.inl rfl)
      (by rw [List.append_nil]; exact Text.trim_solid visible)
    rwa [List.append_nil] at opened
  have unclosed : ']' ∉ name.text ++ how.mark ++ '=' :: '"' :: v₁ := by
    have mark : ']' ∉ how.mark := how.not_mem_mark (by decide)
    simp [name.not_mem (d := ']') rfl, mark, absent]
  have text : conditionsText (.attr name (some (how, w)) :: after) =
      '[' :: ((name.text ++ how.mark ++ '=' :: '"' :: v₁) ++
        ']' :: (v₂ ++ '"' :: ']' :: conditionsText after)) := by
    simp [conditionsText, Condition.text, attributeBody, cut]
  rw [text, conditions_attribute unclosed, Compound.askAttribute, body]
  refine List.IsPrefix.trans ?_ (attributes_conditions _ _)
  exact List.prefix_rfl

/-- The first attribute among conditions whose value has a closing bracket. -/
theorem exists_first_unclosed {conditions : List Condition} {d : Condition} (hd : d ∈ conditions)
    {v : QuotedValue} (hv : v ∈ d.values) (bracket : ']' ∈ v.text) :
    ∃ before name how w after, conditions = before ++ .attr name (some (how, w)) :: after ∧
      ']' ∈ w.text ∧ ∀ e ∈ before, ∀ u ∈ e.values, ']' ∉ u.text := by
  induction conditions with
  | nil => cases hd
  | cons e conditions ih =>
    by_cases closed : ∀ u ∈ e.values, ']' ∉ u.text
    · rcases List.mem_cons.mp hd with rfl | hd
      · exact absurd bracket (closed v hv)
      · obtain ⟨before, name, how, w, after, rfl, inside, none⟩ := ih hd
        exact ⟨e :: before, name, how, w, after, rfl, inside,
          List.forall_mem_cons.mpr ⟨closed, none⟩⟩
    · push Not at closed
      obtain ⟨w, hw, inside⟩ := closed
      cases e with
      | id | cls => cases hw
      | attr name value =>
        cases value with
        | none => cases hw
        | some value =>
          obtain rfl := List.mem_singleton.mp hw
          exact ⟨[], name, value.1, value.2, conditions, rfl, inside, by simp⟩

/-- The first value with a closing bracket is not read as it was printed. -/
theorem closed_of_ofText_text (solid : ∀ v ∈ p.values, ∀ c ∈ v.text, Text.isBlank c = false)
    (read : Compound.ofText p.text = p.asked) : ∀ v ∈ p.values, ']' ∉ v.text := by
  intro v hv bracket
  obtain ⟨d, hd, here⟩ := p.mem_values.mp hv
  obtain ⟨before, name, how, w, after, shape, inside, closed⟩ :=
    exists_first_unclosed hd here bracket
  obtain ⟨v₁, v₂, cut, absent⟩ := List.eq_append_cons_of_mem inside
  have here : w ∈ p.values := p.mem_values.mpr
    ⟨.attr name (some (how, w)), by rw [shape]; simp, List.mem_singleton_self w⟩
  have reads := attributes_cut (before.foldl Condition.ask { tag := p.front.tag? }) name how cut
    absent (solid w here) after
  rw [← conditions_conditionsText closed, ← shape, ← ofText_front, ← text, read, foldl_ask,
    ← p.attributeTests_conditions, shape, List.nil_append] at reads
  have prints : attributeTests (before ++ .attr name (some (how, w)) :: after) =
      attributeTests before ++ attributeOf name (some (how, w)) :: attributeTests after := by
    simp [attributeTests]
  rw [prints, List.prefix_append_right_inj, List.cons_prefix_cons] at reads
  have same : v₁ = w.text := by simpa [attributeOf, String.ofList_inj] using reads.1
  rw [same, cut] at absent
  exact absent (by simp)

end PrintedCompound

/-! ## Selectors -/

section Printed

variable (key : PrintedCompound) (left : List (Combinator × PrintedCompound))

def printedText : String := .ofList (selectorText key.text (left.map fun l => (l.1, l.2.text)))

def printed : Complex := ⟨key.asked, left.map fun l => (l.1, l.2.asked)⟩

theorem texts_printed : key.text :: (left.map fun l => (l.1, l.2.text)).map (·.2) =
    (key :: left.map (·.2)).map PrintedCompound.text := by simp

/-- Compounds of one word each are read one by one. -/
theorem ofText?_printedText
    (solid : ∀ p ∈ key :: left.map (·.2), ∀ v ∈ p.values, ∀ c ∈ v.text, Text.isBlank c = false) :
    Complex.ofText? (printedText key left) = some (printed key left) ↔
      ∀ p ∈ key :: left.map (·.2), Compound.ofText p.text = p.asked := by
  have one : ∀ t ∈ key.text :: (left.map fun l => (l.1, l.2.text)).map (·.2), IsCompoundWord t := by
    rw [texts_printed]
    exact List.forall_mem_map.mpr fun p hp => p.isCompoundWord_text (solid p hp)
  rw [printedText, ofText?_selectorText one, Option.some_inj, printed, Complex.mk.injEq,
    List.forall_mem_cons, List.map_map, List.map_inj_left, List.forall_mem_map]
  simp

/-- Lists that are not empty have no more items than there are lists only if each has one. -/
theorem length_eq_one_of_length_flatMap {α β : Type} {f : α → List β} {xs : List α}
    (some : ∀ x ∈ xs, 1 ≤ (f x).length) :
    xs.length ≤ (xs.flatMap f).length ∧
      ((xs.flatMap f).length = xs.length → ∀ x ∈ xs, (f x).length = 1) := by
  induction xs with
  | nil => exact ⟨Nat.le_refl _, fun _ x hx => absurd hx List.not_mem_nil⟩
  | cons x xs ih =>
    obtain ⟨here, later⟩ := List.forall_mem_cons.mp some
    obtain ⟨least, one⟩ := ih later
    rw [List.flatMap_cons, List.length_append, List.length_cons]
    refine ⟨by omega, fun count => List.forall_mem_cons.mpr ⟨by omega, one (by omega)⟩⟩

/-- As many compounds are read as were printed only if each is one word. -/
theorem solid_of_read (read : Complex.ofText? (printedText key left) = some (printed key left)) :
    ∀ p ∈ key :: left.map (·.2), ∀ v ∈ p.values, ∀ c ∈ v.text, Text.isBlank c = false := by
  have compounds : compoundsOf ((Text.words (printedText key left).toList).foldl Progress.word {}) =
      (key :: left.map (·.2)).map PrintedCompound.asked := by
    rw [Complex.ofText?] at read
    rw [compoundsOf, read]
    simp [printed]
  have none : compoundsOf {} = [] := rfl
  rw [printedText, String.toList_ofList, Selector.compoundsOf_foldl, compoundWords_selectorText,
    texts_printed, none, List.append_nil] at compounds
  generalize key :: left.map (·.2) = ps at compounds ⊢
  have texts {t : List Char} : t ∈ (ps.map PrintedCompound.text).reverse ↔ ∃ p ∈ ps, p.text = t := by
    rw [List.mem_reverse, List.mem_map]
  have some : ∀ t ∈ (ps.map PrintedCompound.text).reverse,
      1 ≤ (compoundWords (Text.words t)).length := by
    intro t ht
    obtain ⟨p, -, rfl⟩ := texts.mp ht
    exact p.one_le_compoundWords
  have one := (length_eq_one_of_length_flatMap some).2 (by simpa using congrArg List.length compounds)
  intro p hp v hv c hc
  by_contra blank
  have two := p.two_le_compoundWords hv hc (by simpa using blank)
  have here := one p.text (texts.mpr ⟨p, hp, rfl⟩)
  omega

/-- A printed selector is read as it was printed just if no value in it has a blank or a closing
bracket. -/
theorem printed_selector_read_iff :
    Complex.ofText? (printedText key left) = some (printed key left) ↔
      ∀ p ∈ key :: left.map (·.2), ∀ v ∈ p.values, v.Intact := by
  constructor
  · intro read p hp v hv c hc
    have solid := solid_of_read key left read
    have same := (ofText?_printedText key left solid).mp read p hp
    refine ⟨solid p hp v hv c hc, ?_⟩
    rintro rfl
    exact p.closed_of_ofText_text (solid p hp) same v hv hc
  · intro intact
    have solid : ∀ p ∈ key :: left.map (·.2), ∀ v ∈ p.values, ∀ c ∈ v.text,
        Text.isBlank c = false := fun p hp v hv c hc => (intact p hp v hv c hc).1
    refine (ofText?_printedText key left solid).mpr fun p hp => p.ofText_text fun v hv bracket => ?_
    exact (intact p hp v hv ']' bracket).2 rfl

end Printed

/-- The selector `a[title="a b"]`. -/
def titledLink : PrintedCompound where
  tag := some ⟨['a'], by simp, List.forall_mem_singleton.mpr rfl⟩
  id := none
  classes := []
  attributes := [(⟨['t', 'i', 't', 'l', 'e'], by simp, List.all_eq_true.mp rfl⟩,
    some (.exact, ⟨['a', ' ', 'b'], by simp⟩))]
  letter := by decide +kernel
  asks := .inl (by decide)

/-- A value with a blank is torn into two compounds. -/
theorem spaced_value_torn :
    ¬ ∀ key left, Complex.ofText? (printedText key left) = some (printed key left) := by
  intro always
  have torn : Complex.ofText? (printedText titledLink []) ≠ some (printed titledLink []) := by
    decide +kernel
  exact torn (always titledLink [])

end AuthoredStyle.Cascade
