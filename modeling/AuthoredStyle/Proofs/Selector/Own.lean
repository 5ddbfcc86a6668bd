import AuthoredStyle.StyleTree.Node
import AuthoredStyle.Proofs.Selector.Names
import AuthoredStyle.Proofs.Sheet.Path

/-!
# The selector that an element is given

The short selector of an element is written with its id, or else with its first class, as
the name stands: nothing in a name is escaped, although the reader of selectors takes five
characters for marks. So an element selects itself whenever its name is free of these. Of
the names with marks only those that come to no request at all, such as a lone dot, are
harmless; every other one fails on some page.

Pages are regular: tags are ASCII letters and digits, ids and classes hold no blanks.
-/

namespace AuthoredStyle.Selector

open Text (Solid)

structure RegularElement (e : Page.Element) : Prop where
  tag_ne_empty : e.tag.toList ≠ []
  tag : ∀ c ∈ e.tag.toList, c.isAlphanum = true
  id : ∀ i, e.id = some i → Solid i.toList
  classes : ∀ c ∈ e.classes, Solid c.toList

def Regular (p : Page) : Prop :=
  ∀ (h : Page.Handle) (e : Page.Element), p.elements[h]? = some e → RegularElement e

/-- The selector given to an element selects it. -/
def SelectsOwn (p : Page) (h : Page.Handle) : Prop :=
  selects (StyleNode.selectorFor (p.tag h) (p.id? h) (p.classes h)) p h = true

/-- Elements with this id select themselves, on whatever page. -/
def IdSelects (name : String) : Prop :=
  ∀ s : Page.Snapshot, let p := Page.ofSnapshot s
    Regular p → ∀ h, p.id? h = some name → SelectsOwn p h

/-- So do elements without an id of which this is the first class. -/
def ClassSelects (name : String) : Prop :=
  ∀ s : Page.Snapshot, let p := Page.ofSnapshot s
    Regular p → ∀ h, p.id? h = none → (p.classes h).head? = some name → SelectsOwn p h

/-! ## Selectors written with a name -/

section Written

variable {p : Page} {h : Page.Handle} {name : String}

theorem Unmarked.endsPart (unmarked : Unmarked name) (solid : Solid name.toList) :
    ∀ c ∈ name.toList, endsPart c = false := by
  intro c hc
  exact endsPart_eq_false (solid.2 c hc) (List.ne_of_not_mem_cons (unmarked c hc))

theorem Unmarked.names (unmarked : Unmarked name) (kind : Kind) :
    names kind [] name.toList = [(kind, name.toList)] :=
  names_unmarked fun c hc => List.not_mem_of_not_mem_cons (unmarked c hc)

theorem parts_id (solid : Solid name.toList) (unmarked : Unmarked name) :
    parts ("#" ++ name) = [{ id := some name }] := by
  have read : Selector.names .tag [] ('#' :: name.toList) = [(.tag, []), (.id, name.toList)] := by
    rw [Selector.names, unmarked.names]
    rfl
  rw [parts_led (by simp) (List.forall_mem_cons.mpr ⟨by decide, unmarked.endsPart solid⟩) read]
  simp [Part.ask, solid.1]

theorem parts_class (solid : Solid name.toList) (unmarked : Unmarked name) :
    parts ("." ++ name) = [{ classes := (∅ : NameSet).insert name }] := by
  have read : Selector.names .tag [] ('.' :: name.toList) = [(.tag, []), (.cls, name.toList)] := by
    rw [Selector.names, unmarked.names]
    rfl
  rw [parts_led (by simp) (List.forall_mem_cons.mpr ⟨by decide, unmarked.endsPart solid⟩) read]
  simp [Part.ask, solid.1]

end Written

/-! ## Tags of regular elements -/

section Tags

variable {e : Page.Element} (regular : RegularElement e)
include regular

theorem RegularElement.not_mem_marks : ∀ c ∈ e.tag.toList, c ∉ '*' :: '>' :: nameMarks := by
  intro c hc mark
  have apart : ('*' :: '>' :: nameMarks).all (!Char.isAlphanum ·) = true := by decide
  have other := List.all_eq_true.mp apart c mark
  simp [regular.tag c hc] at other

theorem RegularElement.unmarked_tag : Unmarked e.tag :=
  fun c hc => List.not_mem_of_not_mem_cons (regular.not_mem_marks c hc)

theorem RegularElement.solid_tag : Solid e.tag.toList :=
  ⟨regular.tag_ne_empty, fun c hc => (Sheet.IsPathChar.isBlank (.inl (regular.tag c hc)))⟩

theorem RegularElement.tag_ne_star : e.tag.toList ≠ ['*'] := by
  intro star
  exact regular.not_mem_marks '*' (star ▸ List.mem_singleton_self _) List.mem_cons_self

theorem RegularElement.parts_tag :
    parts e.tag = [{ tag := some (String.ofList (Text.lower e.tag.toList)) }] := by
  rw [parts_eq, Text.runs_of_none regular.tag_ne_empty
    (regular.unmarked_tag.endsPart regular.solid_tag), List.map_singleton, Part.ofText,
    regular.unmarked_tag.names]
  simp [Part.ask, regular.tag_ne_empty, regular.tag_ne_star]

/-- In front of a class, a tag only adds itself to what is asked for. -/
theorem RegularElement.parts_class_tag {name : String} (solid : Solid name.toList) {part : Part}
    (one : parts ("." ++ name) = [part]) :
    parts (e.tag ++ "." ++ name) =
      [{ part with tag := some (String.ofList (Text.lower e.tag.toList)) }] := by
  obtain ⟨front, rest, -, cut⟩ := exists_runs_append solid.2
  have tagged : ∀ c ∈ e.tag.toList ++ ['.'], endsPart c = false := by
    refine List.forall_mem_append.mpr ⟨regular.unmarked_tag.endsPart regular.solid_tag, ?_⟩
    exact List.forall_mem_singleton.mpr (by decide)
  have short : ("." ++ name).toList = ['.'] ++ name.toList := by simp
  have long : (e.tag ++ "." ++ name).toList = e.tag.toList ++ ['.'] ++ name.toList := by simp
  rw [parts_eq, short, cut ['.'] (by simp) (List.forall_mem_singleton.mpr (by decide))] at one
  obtain ⟨first, none⟩ := List.cons_eq_cons.mp one
  have plain : ∀ c ∈ e.tag.toList, c ∉ nameMarks :=
    fun c hc => List.not_mem_of_not_mem_cons (regular.unmarked_tag c hc)
  rw [parts_eq, long, cut _ (by simp) tagged, List.map_cons, none, ← first]
  have joined : e.tag.toList ++ ['.'] ++ front = e.tag.toList ++ '.' :: front := by simp
  rw [joined, Part.ofText_class_tag regular.tag_ne_empty regular.tag_ne_star plain]
  rfl

end Tags

/-! ## Elements that select themselves -/

section Selecting

variable {p : Page} {h : Page.Handle} {name : String} {part : Part}

theorem selectsOwn_id (solid : Solid name.toList) (own : p.id? h = some name) :
    SelectsOwn p h ↔ selects ("#" ++ name) p h = true := by
  have some : name ≠ "" := by
    rintro rfl
    exact solid.1 rfl
  have kept : (Option.some name).filter (· ≠ "") = .some name := by simp [some]
  rw [SelectsOwn, StyleNode.selectorFor, own, kept]

theorem selectsOwn_division (division : p.tag h = "div") (anonymous : p.id? h = none)
    (first : (p.classes h).head? = some name) :
    SelectsOwn p h ↔ selects ("." ++ name) p h = true := by
  rw [SelectsOwn, StyleNode.selectorFor, anonymous, first]
  simp [division]

theorem selectsOwn_of_class {e : Page.Element} (found : p.elements[h]? = some e)
    (regular : RegularElement e) (solid : Solid name.toList) (anonymous : p.id? h = none)
    (first : (p.classes h).head? = some name) (one : parts ("." ++ name) = [part])
    (holds : part.holdsOf p h = true) : SelectsOwn p h := by
  by_cases division : p.tag h = "div"
  · rw [selectsOwn_division division anonymous first, selects_of_parts one, holds]
  · have tag : p.tag h = e.tag := by simp [Page.tag, found]
    have tagged := regular.parts_class_tag solid one
    rw [← tag] at tagged
    simp only [Part.holdsOf, Bool.and_eq_true] at holds
    rw [SelectsOwn, StyleNode.selectorFor, anonymous, first]
    simp [division, selects_of_parts tagged, Part.holdsOf, holds, Text.lower_lower]

theorem selectsOwn_of_tag {e : Page.Element} (found : p.elements[h]? = some e)
    (regular : RegularElement e) (anonymous : p.id? h = none) (none : p.classes h = []) :
    SelectsOwn p h := by
  have tag : p.tag h = e.tag := by simp [Page.tag, found]
  have one := regular.parts_tag
  rw [← tag] at one
  rw [SelectsOwn, StyleNode.selectorFor, anonymous, none]
  have all : (∅ : NameSet).toList.all (p.classes h).contains = true := rfl
  simp [selects_of_parts one, Part.holdsOf, Text.lower_lower, all]

end Selecting

/-! ## Names that keep their elements from selecting themselves -/

section Lone

variable {id : Option String} {classes : List String}

theorem regular_lone (ids : ∀ i, id = some i → Solid i.toList)
    (visible : ∀ c ∈ classes, Solid c.toList) : Regular (.ofSnapshot (lone id classes)) := by
  intro h e found
  cases h with
  | zero =>
    cases found
    let tag := String.ofList (Text.lower "div".toList)
    have some : tag.toList ≠ [] := by decide
    have plain : ∀ c ∈ tag.toList, c.isAlphanum = true :=
      List.all_eq_true.mp (by decide : tag.toList.all Char.isAlphanum = true)
    exact ⟨some, plain, ids, visible⟩
  | succ h => cases found

/-- On an element that has nothing but this name, a part read from a shorter text either
asks for nothing or fails. -/
theorem ofText_eq_of_holdsOf_lone {name : String} {kind : Kind} (known : kind ≠ .tag)
    {s front : List Char} (start : names .tag [] s = (.tag, []) :: names kind [] front)
    (short : ∀ n ∈ names kind [] front, n.2.length < name.toList.length)
    (ids : ∀ i, id = some i → i = name) (own : ∀ c ∈ classes, c = name)
    (holds : (Part.ofText s).holdsOf (.ofSnapshot (lone id classes)) 0 = true) :
    Part.ofText s = {} := by
  have read : Part.ofText s = (names kind [] front).foldl Part.ask {} := by
    rw [Part.ofText, start]
    rfl
  have other (t : String) (k : Kind) (ht : (k, t.toList) ∈ names kind [] front) : t ≠ name := by
    rintro rfl
    exact Nat.lt_irrefl _ (short _ ht)
  rw [read] at holds ⊢
  simp only [Part.holdsOf, Bool.and_eq_true] at holds
  obtain ⟨⟨-, asksId⟩, asksClasses⟩ := holds
  have tags : ∀ n ∈ names kind [] front, n.1 ≠ .tag := fun n hn => kind_of_mem_names hn known
  have noTag := Part.tag_foldl_ask tags {}
  have noId : ((names kind [] front).foldl Part.ask {}).id = none := by
    cases asked : ((names kind [] front).foldl Part.ask {}).id with
    | none => rfl
    | some i =>
      rw [asked] at asksId
      have here : (Page.ofSnapshot (lone id classes)).id? 0 = some i := by simpa using asksId
      rcases Part.mem_of_id_foldl_ask asked with asked | asked
      · cases asked
      · exact absurd (ids i here) (other i .id asked)
  have noClass : ((names kind [] front).foldl Part.ask {}).classes = ∅ := by
    ext c
    refine iff_of_false (fun hc => ?_) (NameSet.not_mem_empty c)
    rcases Part.mem_of_mem_classes_foldl_ask hc with asked | asked
    · exact NameSet.not_mem_empty c asked
    · have here : c ∈ (Page.ofSnapshot (lone id classes)).classes 0 := by
        simpa using List.all_eq_true.mp asksClasses c hc
      exact other c .cls asked (own c (List.mem_of_mem_filter here))
  cases part : (names kind [] front).foldl Part.ask {}
  simp_all

/-- What is read from a name with marks is shorter than the name. -/
theorem length_lt_of_marked {name : String} (marked : ¬ Unmarked name) {front : List Char}
    (cut : front = name.toList ∧ '>' ∉ name.toList ∨ front.length < name.toList.length)
    {kind : Kind} {n : Kind × List Char} (hn : n ∈ names kind [] front) :
    n.2.length < name.toList.length := by
  have bound := length_of_mem_names hn
  rw [List.length_nil, Nat.zero_add] at bound
  rcases cut with ⟨rfl, whole⟩ | cut
  · simp only [Unmarked, not_forall, not_not] at marked
    obtain ⟨c, hc, mark⟩ := marked
    rcases List.mem_cons.mp mark with rfl | mark
    · exact absurd hc whole
    · have some : 0 < name.toList.countP (· ∈ nameMarks) :=
        List.countP_pos_iff.mpr ⟨c, hc, decide_eq_true mark⟩
      omega
  · omega

theorem parts_eq_of_selects_lone {name : String} (solid : Solid name.toList)
    (marked : ¬ Unmarked name) (lead : Char) (ends : endsPart lead = false) (kind : Kind)
    (known : kind ≠ .tag)
    (start : ∀ front, names .tag [] (lead :: front) = (.tag, []) :: names kind [] front)
    {selector : String} (text : selector.toList = lead :: name.toList)
    (ids : ∀ i, id = some i → i = name) (own : ∀ c ∈ classes, c = name)
    (selected : selects selector (.ofSnapshot (lone id classes)) 0 = true) :
    parts selector = [{}] := by
  obtain ⟨part, one, holds⟩ := selects_lone_iff.mp selected
  obtain ⟨front, rest, short, cut⟩ := exists_runs_append solid.2
  have whole : parts selector = Part.ofText (lead :: front) :: rest.map Part.ofText := by
    rw [parts_eq, text]
    exact congrArg (List.map Part.ofText)
      (cut [lead] (List.cons_ne_nil _ _) (List.forall_mem_singleton.mpr ends))
  rw [whole] at one ⊢
  obtain ⟨rfl, none⟩ := List.cons_eq_cons.mp one
  rw [none, ofText_eq_of_holdsOf_lone known (start front)
    (fun n hn => length_lt_of_marked marked short hn) ids own holds]

end Lone

section Exactness

variable {name : String} (solid : Solid name.toList)
include solid

theorem idSelects_iff : IdSelects name ↔ Unmarked name ∨ parts ("#" ++ name) = [{}] := by
  constructor
  · intro all
    refine or_iff_not_imp_left.mpr fun marked => ?_
    have ids : ∀ i, some name = some i → i = name := fun i own => (Option.some.inj own).symm
    have none : ∀ c ∈ ([] : List String), c = name := fun _ hc => absurd hc List.not_mem_nil
    have regular : Regular (.ofSnapshot (lone (some name) [])) :=
      regular_lone (fun i own => ids i own ▸ solid) (fun c hc => none c hc ▸ solid)
    have selected := (selectsOwn_id solid rfl).mp (all _ regular 0 rfl)
    exact parts_eq_of_selects_lone solid marked '#' (by decide) .id (by decide) (fun _ => rfl)
      (by simp) ids none selected
  · rintro (unmarked | silent) s p - h own
    · rw [selectsOwn_id solid own, selects_of_parts (parts_id solid unmarked)]
      simp only [Part.holdsOf, own, Option.all_none, Option.all_some, decide_true, Bool.true_and]
      rfl
    · rw [selectsOwn_id solid own, selects_of_parts silent]
      rfl

theorem classSelects_iff (seen : Page.isMarker name = false) :
    ClassSelects name ↔ Unmarked name ∨ parts ("." ++ name) = [{}] := by
  constructor
  · intro all
    refine or_iff_not_imp_left.mpr fun marked => ?_
    have ids : ∀ i, none = some i → i = name := fun i own => by cases own
    have own : ∀ c ∈ [name], c = name := fun c hc => List.mem_singleton.mp hc
    have regular : Regular (.ofSnapshot (lone none [name])) :=
      regular_lone (fun i none => ids i none ▸ solid) (fun c hc => own c hc ▸ solid)
    have division : (Page.ofSnapshot (lone none [name])).tag 0 = "div" :=
      (by decide : String.ofList (Text.lower "div".toList) = "div")
    have first : ((Page.ofSnapshot (lone none [name])).classes 0).head? = some name := by
      have kept : [name].filter (!Page.isMarker ·) = [name] := by simp [seen]
      exact congrArg List.head? kept
    have selected := (selectsOwn_division division rfl first).mp (all _ regular 0 rfl first)
    exact parts_eq_of_selects_lone solid marked '.' (by decide) .cls (by decide) (fun _ => rfl)
      (by simp) ids own selected
  · intro harmless s p regular h anonymous first
    have among : name ∈ p.classes h := List.mem_of_mem_head? first
    have ⟨e, found⟩ : ∃ e, p.elements[h]? = some e := by
      cases found : p.elements[h]? with
      | some e => exact ⟨e, rfl⟩
      | none =>
        rw [Page.classes, Page.classList, found] at among
        exact absurd among List.not_mem_nil
    rcases harmless with unmarked | silent
    · refine selectsOwn_of_class found (regular h e found) solid anonymous first
        (parts_class solid unmarked) ?_
      simp only [Part.holdsOf, Option.all_none, Bool.true_and, List.all_eq_true]
      intro c hc
      rcases NameSet.mem_insert.mp hc with rfl | none
      · simpa using among
      · exact absurd none (NameSet.not_mem_empty c)
    · exact selectsOwn_of_class found (regular h e found) solid anonymous first silent rfl

end Exactness

/-- An element without a name is selected by its tag. One with a name is selected by its
own selector on all pages exactly if the name is free of marks, or the selector that is
written with it asks for nothing; this holds of ids and of first classes alike. -/
theorem selectsOwn_exact {name : String} (solid : Solid name.toList) :
    (∀ s : Page.Snapshot, let p := Page.ofSnapshot s
        Regular p → ∀ h < p.size, p.id? h = none → p.classes h = [] → SelectsOwn p h) ∧
      (IdSelects name ↔ Unmarked name ∨ parts ("#" ++ name) = [{}]) ∧
        (Page.isMarker name = false →
          (ClassSelects name ↔ Unmarked name ∨ parts ("." ++ name) = [{}])) := by
  refine ⟨?_, idSelects_iff solid, classSelects_iff solid⟩
  intro s p regular h inside anonymous bare
  have found := Array.getElem?_eq_getElem inside
  exact selectsOwn_of_tag found (regular h _ found) anonymous bare

theorem selectsOwn_exact_of_utilities :
    ClassSelects "md:w-1/2" ∧ ¬ ClassSelects "p-0.5" ∧ IdSelects ".." ∧ ¬ IdSelects "a>b" := by
  refine ⟨((selectsOwn_exact ?_).2.2 ?_).mpr (.inl ?_), mt ((selectsOwn_exact ?_).2.2 ?_).mp ?_,
    (selectsOwn_exact ?_).2.1.mpr (.inr ?_), mt (selectsOwn_exact ?_).2.1.mp ?_⟩ <;>
    decide +kernel

/-- A class with a dot in it is not found by the selector written with it. -/
theorem dotted_class_not_selected :
    Regular (.ofSnapshot (lone none ["p-0.5"])) ∧
      ¬ SelectsOwn (.ofSnapshot (lone none ["p-0.5"])) 0 := by
  refine ⟨regular_lone (fun i none => by cases none) (by decide), ?_⟩
  rw [SelectsOwn]
  decide +kernel

end AuthoredStyle.Selector
