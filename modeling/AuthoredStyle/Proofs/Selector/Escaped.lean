import AuthoredStyle.Proofs.Selector.Names

/-!
# Escaped names

A name is escaped by a backslash in front of each character but ASCII letters, digits,
hyphens and underscores. The reader of a part gives every name back from its escaped form,
whatever the name is made of. A separator inside an escaped name has a backslash in front
of it as well, so where others cut there, what is left in front ends in a backslash and is
still a written name, of fewer characters.
-/

namespace AuthoredStyle.Selector

open Text (Solid)

def isPlain (c : Char) : Bool := c.isAlphanum || c = '-' || c = '_'

def escapeChar (c : Char) : List Char := if isPlain c then [c] else ['\\', c]

def escape (name : List Char) : List Char := name.flatMap escapeChar

/-- The text is the escaped name, or all of it and the backslash behind it. -/
def Writes (text name : List Char) : Prop := text = escape name ∨ text = escape name ++ ['\\']

section Escape

@[simp] theorem escape_nil : escape [] = [] := rfl

theorem escape_cons (c : Char) (name : List Char) :
    escape (c :: name) = escapeChar c ++ escape name := List.flatMap_cons

theorem escape_append (a b : List Char) : escape (a ++ b) = escape a ++ escape b :=
  List.flatMap_append

theorem escapeChar_plain {c : Char} (plain : isPlain c = true) : escapeChar c = [c] :=
  if_pos plain

theorem escapeChar_special {c : Char} (special : isPlain c = false) :
    escapeChar c = ['\\', c] :=
  if_neg (by simp [special])

/-- No character of this kind is plain. -/
theorem ne_of_isPlain {c : Char} (plain : isPlain c = true) {d : Char}
    (special : isPlain d = false) : c ≠ d := by
  rintro rfl
  rw [plain] at special
  cases special

theorem mem_escape {c : Char} {name : List Char} (h : c ∈ name) : c ∈ escape name := by
  refine List.mem_flatMap.mpr ⟨c, h, ?_⟩
  rw [escapeChar]
  split <;> simp

theorem visible_escape {name : List Char} (visible : ∀ c ∈ name, Text.isBlank c = false) :
    ∀ c ∈ escape name, Text.isBlank c = false := by
  intro c hc
  obtain ⟨d, hd, hc⟩ := List.mem_flatMap.mp hc
  rw [escapeChar] at hc
  split at hc
  · exact List.mem_singleton.mp hc ▸ visible d hd
  · rcases List.mem_cons.mp hc with rfl | hc
    · rfl
    · exact List.mem_singleton.mp hc ▸ visible d hd

/-- An escaped name starts with a plain character or a backslash. -/
theorem head?_escape_ne {name : List Char} {d : Char} (special : isPlain d = false)
    (noSlash : d ≠ '\\') : (escape name).head? ≠ some d := by
  cases name with
  | nil => simp
  | cons c name =>
    rw [escape_cons, escapeChar]
    split
    · rename_i plain
      simpa using ne_of_isPlain plain special
    · simpa using noSlash.symm

/-- Where a special character stands, the name was escaped up to it and from it on. -/
theorem exists_of_escape_append {name tail a b : List Char} {mark : Char}
    (special : isPlain mark = false) (absent : mark ∉ '\\' :: tail)
    (h : escape name ++ tail = a ++ mark :: b) :
    ∃ x y, name = x ++ mark :: y ∧ a = escape x ++ ['\\'] ∧ b = escape y ++ tail := by
  obtain ⟨noSlash, noTail⟩ := List.ne_and_not_mem_of_not_mem_cons absent
  induction name generalizing a with
  | nil =>
    have there : mark ∈ escape [] ++ tail := h ▸ List.mem_append_right a List.mem_cons_self
    exact absurd there noTail
  | cons c name ih =>
    rw [escape_cons, List.append_assoc] at h
    cases plain : isPlain c with
    | true =>
      rw [escapeChar_plain plain, List.singleton_append] at h
      cases a with
      | nil => exact absurd (List.cons_eq_cons.mp h).1 (ne_of_isPlain plain special)
      | cons d a =>
        obtain ⟨rfl, later⟩ := List.cons_eq_cons.mp h
        obtain ⟨x, y, rfl, rfl, rfl⟩ := ih later
        exact ⟨c :: x, y, rfl, by simp [escape_cons, escapeChar_plain plain], rfl⟩
    | false =>
      rw [escapeChar_special plain, List.cons_append, List.cons_append, List.nil_append] at h
      cases a with
      | nil => exact absurd (List.cons_eq_cons.mp h).1.symm noSlash
      | cons d a =>
        obtain ⟨rfl, behind⟩ := List.cons_eq_cons.mp h
        cases a with
        | nil =>
          obtain ⟨rfl, rfl⟩ := List.cons_eq_cons.mp behind
          exact ⟨[], name, rfl, rfl, rfl⟩
        | cons e a =>
          obtain ⟨rfl, later⟩ := List.cons_eq_cons.mp behind
          obtain ⟨x, y, rfl, rfl, rfl⟩ := ih later
          exact ⟨c :: x, y, rfl, by simp [escape_cons, escapeChar_special plain], rfl⟩

end Escape

/-! ## Written names -/

namespace Writes

variable {text name : List Char}

theorem visible (writes : Writes text name) (h : ∀ c ∈ name, Text.isBlank c = false) :
    ∀ c ∈ text, Text.isBlank c = false := by
  rcases writes with rfl | rfl
  · exact visible_escape h
  · exact List.forall_mem_append.mpr
      ⟨visible_escape h, List.forall_mem_singleton.mpr (by decide)⟩

theorem mem (writes : Writes text name) {c : Char} (h : c ∈ name) : c ∈ text := by
  rcases writes with rfl | rfl
  · exact mem_escape h
  · exact List.mem_append_left _ (mem_escape h)

/-- Cut at a special character, a written name is two. -/
theorem cut {a b : List Char} {mark : Char} (writes : Writes (a ++ mark :: b) name)
    (special : isPlain mark = false) (noSlash : mark ≠ '\\') :
    ∃ x y, name = x ++ mark :: y ∧ a = escape x ++ ['\\'] ∧ Writes b y := by
  rcases writes with whole | whole
  · rw [← List.append_nil (escape name)] at whole
    obtain ⟨x, y, split, front, back⟩ :=
      exists_of_escape_append special (by simpa using noSlash) whole.symm
    exact ⟨x, y, split, front, .inl (back.trans (List.append_nil _))⟩
  · obtain ⟨x, y, split, front, back⟩ :=
      exists_of_escape_append special (by simpa using noSlash) whole.symm
    exact ⟨x, y, split, front, .inr back⟩

/-- A written name is read as one name. -/
theorem names_eq (writes : Writes text name) (kind : Kind) : names kind [] text = [(kind, name)] := by
  have through (seen s : List Char) :
      names kind seen (escape name ++ s) = names kind (name.reverse ++ seen) s := by
    clear writes
    induction name generalizing seen with
    | nil => rfl
    | cons c name ih =>
      rw [escape_cons, List.append_assoc]
      cases plain : isPlain c with
      | true =>
        have free : ∀ d ∈ [c], d ∉ nameMarks := by
          refine List.forall_mem_singleton.mpr fun mark => ?_
          have special := List.all_eq_true.mp
            (by decide : nameMarks.all (!isPlain ·) = true) c mark
          simp [plain] at special
        rw [escapeChar_plain plain, names_unmarked_append free, ih]
        simp
      | false =>
        rw [escapeChar_special plain, List.cons_append, List.cons_append, List.nil_append, names, ih]
        simp
  rcases writes with rfl | rfl
  · have whole := through [] []
    rw [List.append_nil] at whole
    rw [whole, names]
    simp
  · rw [through, names]
    simp

/-- Cut at the ends of parts, a written name is the names of its parts. The first of them
stands behind what leads the text, and is the whole name or a shorter one. -/
theorem of_mem_runs {lead text name : List Char} (writes : Writes text name)
    (visible : ∀ c ∈ name, Text.isBlank c = false) (free : ∀ c ∈ lead, endsPart c = false)
    {r : List Char} (hr : r ∈ Text.runs endsPart (lead ++ text)) :
    (∃ t v, r = lead ++ t ∧ Writes t v ∧ (v = name ∧ '>' ∉ name ∨ v.length < name.length)) ∨
      ∃ v, Writes r v := by
  have seen := writes.visible visible
  by_cases cut : '>' ∈ text
  · obtain ⟨a, b, rfl, noCut⟩ := List.eq_append_cons_of_mem cut
    have ⟨x, y, split, front, back⟩ := writes.cut (by decide) (by decide)
    have shorter : x.length < name.length ∧ y.length < name.length := by
      rw [split, List.length_append, List.length_cons]
      omega
    have inside : ∀ c ∈ lead ++ a, endsPart c = false :=
      List.forall_mem_append.mpr
        ⟨free, endsPart_of_mem (fun c hc => seen c (List.mem_append_left _ hc)) noCut⟩
    rw [← List.append_assoc, Text.runs_append_separator _ b (by decide),
      Text.runs_of_none (by simp [front]) inside] at hr
    rcases List.mem_append.mp hr with first | later
    · exact .inl ⟨a, x, List.mem_singleton.mp first, .inr front, .inr shorter.1⟩
    · have here : r ∈ Text.runs endsPart ([] ++ b) := later
      have nothing : ∀ c ∈ ([] : List Char), endsPart c = false :=
        fun _ hc => absurd hc List.not_mem_nil
      rcases back.of_mem_runs (fun c hc => visible c (by simp [split, hc])) nothing here with
        ⟨t, v, rfl, written, -⟩ | written
      · exact .inr ⟨v, written⟩
      · exact .inr written
  · by_cases none : lead ++ text = []
    · rw [none] at hr
      cases hr
    · have inside : ∀ c ∈ lead ++ text, endsPart c = false :=
        List.forall_mem_append.mpr ⟨free, endsPart_of_mem seen cut⟩
      rw [Text.runs_of_none none inside] at hr
      exact .inl ⟨text, name, List.mem_singleton.mp hr, writes,
        .inl ⟨rfl, fun mark => cut (writes.mem mark)⟩⟩
termination_by name.length
decreasing_by exact shorter.2

end Writes

/-! ## Classes that are asked for -/

/-- Some part of the selector asks for the class. -/
def Asks (selector cls : String) : Prop := ∃ part ∈ parts selector, cls ∈ part.classes

section Asking

variable {selector cls : String} {text name : List Char}

theorem exists_run_of_asks (asks : Asks selector cls) :
    ∃ r ∈ Text.runs endsPart selector.toList, (Kind.cls, cls.toList) ∈ names .tag [] r := by
  obtain ⟨part, here, asked⟩ := asks
  obtain ⟨r, hr, rfl⟩ := List.mem_map.mp here
  have read := Part.mem_of_mem_classes_foldl_ask asked
  exact ⟨r, hr, read.resolve_left (NameSet.not_mem_empty cls)⟩

/-- A written name without a dot in front is no class. -/
theorem Writes.not_asks (writes : Writes selector.toList name)
    (visible : ∀ c ∈ name, Text.isBlank c = false) : ¬ Asks selector cls := by
  intro asks
  obtain ⟨r, hr, named⟩ := exists_run_of_asks asks
  have nothing : ∀ c ∈ ([] : List Char), endsPart c = false :=
    fun _ hc => absurd hc List.not_mem_nil
  have here : r ∈ Text.runs endsPart ([] ++ selector.toList) := hr
  have ⟨v, written⟩ : ∃ v, Writes r v := by
    rcases writes.of_mem_runs visible nothing here with ⟨t, v, rfl, written, -⟩ | written
    · exact ⟨v, written⟩
    · exact written
  rw [written.names_eq] at named
  cases List.mem_singleton.mp named

theorem Writes.names_led (writes : Writes text name) :
    names .tag [] ('.' :: text) = [(.tag, []), (.cls, name)] := by
  rw [names, writes.names_eq]
  rfl

/-- Behind a dot, a written name asks for itself if no part ends in it, and for less
otherwise. -/
theorem Writes.asks_led (writes : Writes text name) (visible : ∀ c ∈ name, Text.isBlank c = false)
    (led : selector.toList = '.' :: text) (asks : Asks selector cls) :
    cls.toList = name ∧ '>' ∉ name ∨ cls.toList.length < name.length := by
  obtain ⟨r, hr, named⟩ := exists_run_of_asks asks
  have dot : ∀ c ∈ ['.'], endsPart c = false := List.forall_mem_singleton.mpr (by decide)
  rw [led, ← List.singleton_append] at hr
  rcases writes.of_mem_runs visible dot hr with ⟨t, v, rfl, written, long⟩ | ⟨v, written⟩
  · rw [List.singleton_append, written.names_led] at named
    have same : cls.toList = v := by simpa using named
    rwa [same]
  · rw [written.names_eq] at named
    cases List.mem_singleton.mp named

/-- Without a part ending in it, an escaped class is asked for as it is. -/
theorem parts_escaped (solid : Solid name) (whole : '>' ∉ name)
    (led : selector.toList = '.' :: escape name) :
    parts selector = [{ classes := (∅ : NameSet).insert (String.ofList name) }] := by
  have writes : Writes (escape name) name := .inl rfl
  have uncut : '>' ∉ escape name := by
    intro mark
    obtain ⟨a, b, split⟩ := List.append_of_mem mark
    rw [split] at writes
    obtain ⟨x, y, here, -⟩ := writes.cut (by decide) (by decide)
    exact whole (by simp [here])
  have free : ∀ c ∈ '.' :: escape name, endsPart c = false :=
    List.forall_mem_cons.mpr ⟨by decide, endsPart_of_mem (visible_escape solid.2) uncut⟩
  rw [parts_led led free writes.names_led]
  simp [Part.ask, solid.1]

/-- A selector finds the elements of a class, on all pages. -/
def Finds (selector cls : String) : Prop :=
  ∀ s : Page.Snapshot, let p := Page.ofSnapshot s
    ∀ h < p.size, selects selector p h = true ↔ cls ∈ p.classes h

/-- No selector finds the elements of a class without asking for it. -/
theorem Finds.asks (finds : Finds selector cls) (seen : Page.isMarker cls = false) :
    Asks selector cls := by
  let marked := Page.ofSnapshot (lone none [cls])
  let bare := Page.ofSnapshot (lone none [])
  have has : marked.classes 0 = [cls] := by
    have kept : [cls].filter (!Page.isMarker ·) = [cls] := by simp [seen]
    exact kept
  have inside (classes : List String) : 0 < (Page.ofSnapshot (lone none classes)).size :=
    Nat.zero_lt_one
  have here : cls ∈ marked.classes 0 := by simp [has]
  have selected := (finds (lone none [cls]) 0 (inside _)).mpr here
  obtain ⟨part, one, holds⟩ := selects_lone_iff.mp selected
  by_contra silent
  have none : part.classes.toList = [] := by
    refine List.eq_nil_iff_forall_not_mem.mpr fun c hc => silent ⟨part, by simp [one], ?_⟩
    simp only [Part.holdsOf, Bool.and_eq_true, List.all_eq_true] at holds
    have here : c ∈ marked.classes 0 := by simpa using holds.2 c hc
    rw [has, List.mem_singleton] at here
    exact here ▸ hc
  have onBare : part.holdsOf bare 0 = true := by
    simp only [Part.holdsOf, none, Bool.and_eq_true] at holds ⊢
    exact ⟨holds.1, rfl⟩
  have found := (finds (lone Option.none []) 0 (inside _)).mp (selects_lone_iff.mpr ⟨part, one, onBare⟩)
  exact absurd found List.not_mem_nil

end Asking

end AuthoredStyle.Selector
