import AuthoredStyle.Selector.Match
import AuthoredStyle.Proofs.Page.Ancestry
import AuthoredStyle.Proofs.Text.Trim

/-!
# What a selector asks for

A part of a selector is read name by name. A text without marks is one name, and a text
that has one gives shorter names only, since the mark itself belongs to none of them.
Names that say they are ids or classes leave the tag alone.

A page of a single element tells selectors apart: nothing is above the element, so only a
selector of one part can select it.
-/

namespace AuthoredStyle.Selector

open Text (Solid)

/-- What the reader of a part looks at. -/
def nameMarks : List Char := ['\\', '#', '.', '[']

/-- Neither a mark nor the end of a part. -/
def Unmarked (name : String) : Prop := ∀ c ∈ name.toList, c ∉ '>' :: nameMarks

instance : DecidablePred Unmarked := fun name =>
  decidable_of_iff (name.toList.all (· ∉ '>' :: nameMarks) = true) (by simp [Unmarked])

/-! ## Names -/

section Names

variable {kind : Kind} {seen s : List Char}

theorem names_unmarked_append (h : ∀ c ∈ s, c ∉ nameMarks) (t : List Char) :
    names kind seen (s ++ t) = names kind (s.reverse ++ seen) t := by
  induction s generalizing seen with
  | nil => rfl
  | cons c s ih =>
    obtain ⟨here, later⟩ := List.forall_mem_cons.mp h
    simp only [nameMarks, List.mem_cons, List.not_mem_nil, or_false, not_or] at here
    rw [List.cons_append, names, ih later]
    · simp
    all_goals simp_all

theorem names_unmarked (h : ∀ c ∈ s, c ∉ nameMarks) :
    names kind seen s = [(kind, seen.reverse ++ s)] := by
  have whole : names kind seen (s ++ []) = names kind (s.reverse ++ seen) [] :=
    names_unmarked_append h []
  rw [List.append_nil] at whole
  rw [whole, names]
  simp

/-- A mark belongs to no name, so each name misses it. -/
theorem length_of_mem_names {n : Kind × List Char} (h : n ∈ names kind seen s) :
    n.2.length + min 1 (s.countP (· ∈ nameMarks)) ≤ seen.length + s.length := by
  have inside (c : Char) (t : List Char) : (c :: t).countP (· ∈ nameMarks) =
      t.countP (· ∈ nameMarks) + if c ∈ nameMarks then 1 else 0 := by
    rw [List.countP_cons]
    simp
  fun_induction names kind seen s with
  | case1 kind seen => simp_all
  | case2 kind seen =>
    rw [List.mem_singleton.mp h, List.length_reverse, List.length_singleton]
    omega
  | case3 kind seen c s ih =>
    have := ih h
    simp only [List.length_cons] at this ⊢
    omega
  | case4 kind seen s ih | case5 kind seen s ih =>
    rcases List.mem_cons.mp h with rfl | h
    · simp only [List.length_reverse, List.length_cons]
      omega
    · have := ih h
      simp only [List.length_nil, List.length_cons] at this ⊢
      omega
  | case6 kind seen s =>
    rw [List.mem_singleton.mp h, List.length_reverse, List.length_cons]
    omega
  | case7 kind seen c s last slash hash dot bracket ih =>
    have := ih h
    have noSlash : c ≠ '\\' := by
      rintro rfl
      cases s with
      | nil => exact last rfl rfl
      | cons d t => exact slash d t rfl rfl
    have other : c ∉ nameMarks := by simpa [nameMarks, noSlash] using ⟨hash, dot, bracket⟩
    rw [inside, if_neg other]
    simp only [List.length_cons] at this ⊢
    omega

theorem mem_of_mem_names {n : Kind × List Char} (hn : n ∈ names kind seen s) {c : Char}
    (hc : c ∈ n.2) : c ∈ seen ∨ c ∈ s := by
  fun_induction names kind seen s with
  | case1 kind seen | case2 kind seen | case6 kind seen s =>
    rw [List.mem_singleton.mp hn] at hc
    exact .inl (List.mem_reverse.mp hc)
  | case3 kind seen d s ih =>
    rcases ih hn with hc | hc
    · rcases List.mem_cons.mp hc with rfl | hc
      · exact .inr (by simp)
      · exact .inl hc
    · exact .inr (by simp [hc])
  | case4 kind seen s ih | case5 kind seen s ih =>
    rcases List.mem_cons.mp hn with rfl | hn
    · exact .inl (List.mem_reverse.mp hc)
    · exact .inr (List.mem_cons_of_mem _ ((ih hn).resolve_left List.not_mem_nil))
  | case7 kind seen d s last slash hash dot bracket ih =>
    rcases ih hn with hc | hc
    · rcases List.mem_cons.mp hc with rfl | hc
      · exact .inr List.mem_cons_self
      · exact .inl hc
    · exact .inr (List.mem_cons_of_mem d hc)

/-- Behind a first name stand only names that say what they are. -/
theorem kind_of_mem_names {n : Kind × List Char} (h : n ∈ names kind seen s) (other : kind ≠ .tag) :
    n.1 ≠ .tag := by
  fun_induction names kind seen s with
  | case1 kind seen | case2 kind seen | case6 kind seen s =>
    rw [List.mem_singleton.mp h]
    exact other
  | case3 kind seen c s ih | case7 kind seen c s last slash hash dot bracket ih => exact ih h other
  | case4 kind seen s ih | case5 kind seen s ih =>
    rcases List.mem_cons.mp h with rfl | h
    · exact other
    · exact ih h (by decide)

end Names

/-! ## Asking -/

namespace Part

theorem tag_ask {n : Kind × List Char} (h : n.1 ≠ .tag) (p : Part) : (p.ask n).tag = p.tag := by
  obtain ⟨kind, name⟩ := n
  rw [ask]
  split
  · rfl
  · cases kind with
    | tag => exact absurd rfl h
    | id | cls => rfl

theorem tag_foldl_ask {ns : List (Kind × List Char)} (h : ∀ n ∈ ns, n.1 ≠ .tag) (p : Part) :
    (ns.foldl ask p).tag = p.tag := by
  induction ns generalizing p with
  | nil => rfl
  | cons n ns ih =>
    obtain ⟨here, later⟩ := List.forall_mem_cons.mp h
    rw [List.foldl_cons, ih later, tag_ask here]

/-- Names that are no tags ask for the same whatever the tag is. -/
theorem foldl_ask_tag {ns : List (Kind × List Char)} (h : ∀ n ∈ ns, n.1 ≠ .tag) (p : Part)
    (tag : Option String) :
    ns.foldl ask { p with tag := tag } = { ns.foldl ask p with tag := tag } := by
  induction ns generalizing p with
  | nil => rfl
  | cons n ns ih =>
    obtain ⟨here, later⟩ := List.forall_mem_cons.mp h
    have step : ask { p with tag := tag } n = { p.ask n with tag := tag } := by
      obtain ⟨kind, name⟩ := n
      rw [ask, ask]
      split
      · rfl
      · cases kind with
        | tag => exact absurd rfl here
        | id | cls => rfl
    rw [List.foldl_cons, List.foldl_cons, step, ih later]

theorem mem_of_tag_foldl_ask {ns : List (Kind × List Char)} {p : Part} {t : String}
    (h : (ns.foldl ask p).tag = some t) :
    p.tag = some t ∨ ∃ n, (.tag, n) ∈ ns ∧ t = String.ofList (Text.lower n) := by
  induction ns generalizing p with
  | nil => exact .inl h
  | cons n ns ih =>
    rcases ih h with asked | ⟨m, later, same⟩
    · obtain ⟨kind, name⟩ := n
      rw [ask] at asked
      split at asked
      · exact .inl asked
      · cases kind with
        | tag =>
          dsimp only at asked
          split at asked
          · exact .inl asked
          · exact .inr ⟨name, List.mem_cons_self, (Option.some.inj asked).symm⟩
        | id | cls => exact .inl asked
    · exact .inr ⟨m, List.mem_cons_of_mem n later, same⟩

theorem mem_of_id_foldl_ask {ns : List (Kind × List Char)} {p : Part} {i : String}
    (h : (ns.foldl ask p).id = some i) : p.id = some i ∨ (.id, i.toList) ∈ ns := by
  induction ns generalizing p with
  | nil => exact .inl h
  | cons n ns ih =>
    rcases ih h with asked | later
    · obtain ⟨kind, name⟩ := n
      rw [ask] at asked
      split at asked
      · exact .inl asked
      · cases kind with
        | tag =>
          dsimp only at asked
          split at asked <;> exact .inl asked
        | id =>
          cases Option.some.inj asked
          exact .inr (by simp)
        | cls => exact .inl asked
    · exact .inr (List.mem_cons_of_mem n later)

theorem mem_of_mem_classes_foldl_ask {ns : List (Kind × List Char)} {p : Part} {c : String}
    (h : c ∈ (ns.foldl ask p).classes) : c ∈ p.classes ∨ (.cls, c.toList) ∈ ns := by
  induction ns generalizing p with
  | nil => exact .inl h
  | cons n ns ih =>
    rcases ih h with asked | later
    · obtain ⟨kind, name⟩ := n
      rw [ask] at asked
      split at asked
      · exact .inl asked
      · cases kind with
        | tag =>
          dsimp only at asked
          split at asked <;> exact .inl asked
        | id => exact .inl asked
        | cls =>
          rcases NameSet.mem_insert.mp asked with rfl | asked
          · exact .inr (by simp)
          · exact .inl asked
    · exact .inr (List.mem_cons_of_mem n later)

theorem ofText_class_tag {tag : List Char} (some : tag ≠ []) (star : tag ≠ ['*'])
    (h : ∀ c ∈ tag, c ∉ nameMarks) (s : List Char) :
    ofText (tag ++ '.' :: s) =
      { ofText ('.' :: s) with tag := .some (String.ofList (Text.lower tag)) } := by
  have later : ∀ n ∈ names .cls [] s, n.1 ≠ .tag := fun n hn => kind_of_mem_names hn (by decide)
  have short : names .tag [] ('.' :: s) = (.tag, []) :: names .cls [] s := rfl
  have long : names .tag [] (tag ++ '.' :: s) = (.tag, tag) :: names .cls [] s := by
    rw [names_unmarked_append h, names]
    simp
  have first : ask {} (.tag, tag) = { tag := .some (String.ofList (Text.lower tag)) } := by
    simp [ask, some, star]
  rw [ofText, ofText, short, long, List.foldl_cons, List.foldl_cons, first]
  exact foldl_ask_tag later {} _

end Part

/-! ## Parts -/

section Parts

def endsPart (c : Char) : Bool := c = '>' || Text.isBlank c

theorem endsPart_eq_false {c : Char} (visible : Text.isBlank c = false) (other : c ≠ '>') :
    endsPart c = false := by
  simp [endsPart, visible, other]

theorem endsPart_of_mem {text : List Char} (visible : ∀ c ∈ text, Text.isBlank c = false)
    (whole : '>' ∉ text) : ∀ c ∈ text, endsPart c = false :=
  fun c hc => endsPart_eq_false (visible c hc) (ne_of_mem_of_not_mem hc whole)

theorem parts_eq (selector : String) :
    parts selector = (Text.runs endsPart selector.toList).map Part.ofText := rfl

/-- A mark and one name behind it are one part. -/
theorem parts_led {selector : String} {lead : Char} {text name : List Char} {kind : Kind}
    (led : selector.toList = lead :: text) (free : ∀ c ∈ lead :: text, endsPart c = false)
    (read : names .tag [] (lead :: text) = [(.tag, []), (kind, name)]) :
    parts selector = [Part.ask {} (kind, name)] := by
  rw [parts_eq, led, Text.runs_of_none (List.cons_ne_nil _ _) free, List.map_singleton,
    Part.ofText, read]
  rfl

/-- A name is cut at its first end of a part, whatever it stands behind. -/
theorem exists_runs_append {name : List Char} (visible : ∀ c ∈ name, Text.isBlank c = false) :
    ∃ front rest, (front = name ∧ '>' ∉ name ∨ front.length < name.length) ∧
      ∀ lead : List Char, lead ≠ [] → (∀ c ∈ lead, endsPart c = false) →
        Text.runs endsPart (lead ++ name) = (lead ++ front) :: rest := by
  by_cases cut : '>' ∈ name
  · obtain ⟨front, behind, rfl, noCut⟩ := List.eq_append_cons_of_mem cut
    refine ⟨front, Text.runs endsPart behind, .inr (by simp), fun lead some free => ?_⟩
    rw [← List.append_assoc, Text.runs_append_separator _ _ (by decide), Text.runs_of_none]
    · rfl
    · simp [some]
    · have seen : ∀ c ∈ front, Text.isBlank c = false :=
        fun c hc => visible c (List.mem_append_left _ hc)
      exact List.forall_mem_append.mpr ⟨free, endsPart_of_mem seen noCut⟩
  · refine ⟨name, [], .inl ⟨rfl, cut⟩, fun lead some free => Text.runs_of_none (by simp [some]) ?_⟩
    exact List.forall_mem_append.mpr ⟨free, endsPart_of_mem visible cut⟩

theorem selects_of_parts {selector : String} {part : Part} (one : parts selector = [part])
    (p : Page) (h : Page.Handle) : selects selector p h = part.holdsOf p h := by
  simp [selects, one, holds, foundAbove]

end Parts

/-! ## A single element -/

section Lone

/-- A page of one division. -/
def lone (id : Option String) (classes : List String) : Page.Snapshot where
  document := { tag := "div", id := id, classes := classes }

variable {id : Option String} {classes : List String}

theorem selects_lone_iff {selector : String} :
    selects selector (.ofSnapshot (lone id classes)) 0 = true ↔
      ∃ part, parts selector = [part] ∧ part.holdsOf (.ofSnapshot (lone id classes)) 0 = true := by
  have top : (Page.ofSnapshot (lone id classes)).ancestors 0 = [] :=
    (Page.isWalk_ancestors _).stop rfl
  constructor
  · intro selected
    cases shape : (parts selector).reverse with
    | nil => simp [selects, shape, holds] at selected
    | cons last outer =>
      simp only [selects, shape, holds, top, Bool.and_eq_true] at selected
      cases outer with
      | nil =>
        refine ⟨last, ?_, selected.1⟩
        rw [← List.reverse_reverse (parts selector), shape, List.reverse_singleton]
      | cons part outer => exact absurd selected.2 (by simp [foundAbove])
  · rintro ⟨part, one, holds⟩
    rwa [selects_of_parts one]

end Lone

end AuthoredStyle.Selector
