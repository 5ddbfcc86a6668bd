import AuthoredStyle.Proofs.Selector.Names

/-!
# Spelled parts

A part can be spelled: its tag, its id behind a hash and its classes behind points, with a
backslash in front of each mark inside a name. The reader cuts the spelling at the marks that
have no backslash, and gives back the part, in whatever order the classes come. What it
cannot give back are names that no text can ask for: empty ones, the star as a tag, and tags
that are not in lower case.
-/

namespace AuthoredStyle.Selector

/-- A backslash in front of each mark. -/
def protectChar (c : Char) : List Char := if c ∈ nameMarks then ['\\', c] else [c]

def protect (name : String) : List Char := name.toList.flatMap protectChar

def spelledClasses (classes : List String) : List Char :=
  classes.flatMap fun c => '.' :: protect c

/-- The tag, the id and the classes, one behind the other. -/
def spelled (tag id : Option String) (classes : List String) : List Char :=
  tag.toList.flatMap protect ++ (id.toList.flatMap fun i => '#' :: protect i) ++
    spelledClasses classes

/-- Names that a text can ask for. -/
structure Part.Nameable (p : Part) : Prop where
  tag : ∀ t ∈ p.tag, t ≠ "" ∧ t ≠ "*" ∧ Text.lower t.toList = t.toList
  id : ∀ i ∈ p.id, i ≠ ""
  classes : ∀ c ∈ p.classes, c ≠ ""

/-! ## Reading names -/

section Names

variable {kind : Kind} {seen s : List Char}

theorem names_protectChar (c : Char) :
    names kind seen (protectChar c ++ s) = names kind (c :: seen) s := by
  rw [protectChar]
  split
  · rfl
  · next free =>
    have unmarked : ∀ d ∈ [c], d ∉ nameMarks := List.forall_mem_singleton.mpr free
    exact names_unmarked_append unmarked s

theorem names_protect (name : String) :
    names kind seen (protect name ++ s) = names kind (name.toList.reverse ++ seen) s := by
  rw [protect]
  generalize name.toList = cs
  induction cs generalizing seen with
  | nil => rfl
  | cons c cs ih => rw [List.flatMap_cons, List.append_assoc, names_protectChar, ih]; simp

theorem names_spelledClasses (classes : List String) :
    names kind seen (spelledClasses classes) =
      (kind, seen.reverse) :: classes.map fun c => (.cls, c.toList) := by
  rw [spelledClasses]
  induction classes generalizing kind seen with
  | nil => rfl
  | cons c classes ih =>
    rw [List.flatMap_cons, List.cons_append, names, names_protect, ih]
    simp

/-- A spelling without tag starts with an empty name. -/
theorem names_spelled (tag id : Option String) (classes : List String) :
    names .tag [] (spelled tag id classes) =
      (.tag, (tag.getD "").toList) :: (id.toList.map fun i => (.id, i.toList)) ++
        classes.map fun c => (.cls, c.toList) := by
  have behindTag (seen : List Char) :
      names .tag seen ((id.toList.flatMap fun i => '#' :: protect i) ++ spelledClasses classes) =
        (.tag, seen.reverse) :: (id.toList.map fun i => (.id, i.toList)) ++
          classes.map fun c => (.cls, c.toList) := by
    cases id with
    | none => exact names_spelledClasses classes
    | some i => simp [names, names_protect, names_spelledClasses]
  rw [spelled, List.append_assoc]
  cases tag with
  | none => exact behindTag []
  | some t => simp [names_protect, behindTag]

end Names

/-! ## Asking for names -/

namespace Part

section Ask

variable {p : Part} {name : String}

theorem ask_empty (p : Part) (kind : Kind) : p.ask (kind, []) = p := rfl

theorem isEmpty_toList (visible : name ≠ "") : name.toList.isEmpty = false := by
  rw [List.isEmpty_eq_false_iff]
  exact fun empty => visible (String.toList_eq_nil_iff.mp empty)

theorem ask_tag (visible : name ≠ "") (star : name ≠ "*")
    (low : Text.lower name.toList = name.toList) :
    p.ask (.tag, name.toList) = { p with tag := some name } := by
  have other : name.toList ≠ ['*'] := fun same => star (String.toList_injective same)
  simp [ask, isEmpty_toList visible, other, low]

theorem ask_id (visible : name ≠ "") : p.ask (.id, name.toList) = { p with id := some name } := by
  simp [ask, isEmpty_toList visible]

theorem foldl_ask_classes {classes : List String} (visible : ∀ c ∈ classes, c ≠ "") (p : Part) :
    (classes.map fun c => (Kind.cls, c.toList)).foldl ask p =
      { p with classes := classes.foldl NameSet.insert p.classes } := by
  induction classes generalizing p with
  | nil => rfl
  | cons c classes ih =>
    obtain ⟨here, later⟩ := List.forall_mem_cons.mp visible
    have first : p.ask (.cls, c.toList) = { p with classes := p.classes.insert c } := by
      simp [ask, isEmpty_toList here]
    rw [List.map_cons, List.foldl_cons, first, ih later, List.foldl_cons]

end Ask

/-! ## What can be asked for -/

theorem lower_eq_star_iff {name : List Char} : Text.lower name = ['*'] ↔ name = ['*'] := by
  cases name with
  | nil => simp [Text.lower]
  | cons c name =>
    have star : c.toLower = '*' ↔ c = '*' := Text.toLower_eq_iff (by decide)
    simp [Text.lower, star]

theorem Nameable.ask {p : Part} (nameable : p.Nameable) (name : Kind × List Char) :
    (p.ask name).Nameable := by
  obtain ⟨kind, name⟩ := name
  rw [Part.ask]
  split
  · exact nameable
  · next some =>
    have visible : String.ofList name ≠ "" := by simpa using some
    cases kind with
    | tag =>
      dsimp only
      split
      · exact nameable
      · next other =>
        refine { nameable with tag := fun t asked => ?_ }
        obtain rfl : String.ofList (Text.lower name) = t := Option.some.inj asked
        refine ⟨?_, ?_, ?_⟩
        · simpa [Text.lower] using visible
        · exact fun star =>
            other (lower_eq_star_iff.mp (by simpa using congrArg String.toList star))
        · rw [String.toList_ofList, Text.lower_lower]
    | id =>
      refine { nameable with id := fun i asked => ?_ }
      obtain rfl : String.ofList name = i := Option.some.inj asked
      exact visible
    | cls =>
      refine { nameable with classes := fun c asked => ?_ }
      rcases NameSet.mem_insert.mp asked with rfl | asked
      · exact visible
      · exact nameable.classes c asked

theorem nameable_ofText (s : List Char) : (ofText s).Nameable := by
  have kept (ns : List (Kind × List Char)) (p : Part) (nameable : p.Nameable) :
      (ns.foldl ask p).Nameable := by
    induction ns generalizing p with
    | nil => exact nameable
    | cons n ns ih => exact ih _ (nameable.ask n)
  exact kept _ {} ⟨nofun, nofun, nofun⟩

theorem Nameable.ofText_spelled {p : Part} (nameable : p.Nameable) {classes : List String}
    (listed : ∀ c, c ∈ classes ↔ c ∈ p.classes) : ofText (spelled p.tag p.id classes) = p := by
  have tagged : Part.ask {} (.tag, (p.tag.getD "").toList) = { tag := p.tag } := by
    cases tag : p.tag with
    | none => exact ask_empty {} .tag
    | some t =>
      obtain ⟨visible, star, low⟩ := nameable.tag t tag
      exact ask_tag visible star low
  have named : (p.id.toList.map fun i => (Kind.id, i.toList)).foldl Part.ask { tag := p.tag } =
      { tag := p.tag, id := p.id } := by
    cases id : p.id with
    | none => rfl
    | some i => exact ask_id (nameable.id i id)
  have gathered : classes.foldl NameSet.insert ∅ = p.classes := by
    ext c
    rw [NameSet.mem_foldl_insert, or_iff_right (NameSet.not_mem_empty c), listed]
  rw [ofText, names_spelled, List.foldl_append, List.foldl_cons, tagged, named,
    foldl_ask_classes fun c asked => nameable.classes c ((listed c).mp asked), gathered]

/-- Exactly the parts whose names a text can ask for are read back from their spellings, with
the classes in any order. -/
theorem ofText_spelled_iff (p : Part) :
    (∀ classes, (∀ c, c ∈ classes ↔ c ∈ p.classes) → ofText (spelled p.tag p.id classes) = p) ↔
      p.Nameable := by
  constructor
  · intro back
    rw [← back p.classes.toList fun c => NameSet.mem_def.symm]
    exact nameable_ofText _
  · exact fun nameable classes listed => nameable.ofText_spelled listed

/-- A part whose names hold all marks. -/
def marked : Part where
  tag := some "a.b"
  id := some "c#d"
  classes := .ofList [".[y]", "x\\"]

theorem nameable_marked : marked.Nameable := ⟨by decide, by decide, by decide⟩

/-- Marks inside names do not cut them. -/
theorem ofText_spelled_iff_of_marked :
    marked.Nameable ∧ ofText (spelled (some "a.b") (some "c#d") ["x\\", ".[y]"]) = marked :=
  ⟨nameable_marked, (ofText_spelled_iff marked).mpr nameable_marked ["x\\", ".[y]"] fun c => by
    simp [marked, or_comm]⟩

end Part

end AuthoredStyle.Selector
