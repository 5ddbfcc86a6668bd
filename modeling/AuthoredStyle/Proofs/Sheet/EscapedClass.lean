import AuthoredStyle.Proofs.Sheet.EscapedScan

/-!
# Classes found by their escaped names

A sheet has one block, and its selector is a dot and an escaped class name. It is known
exactly for which names the sheet makes one plain rule that finds the elements of the class.
The backslash protects a character from being read as a pseudo token, an id, another class
or an attribute, but not from the scan of the sheet, not from the cut of a list at its commas
and not from the cut of a selector at its parts. All names that are cut there are lost: what
is left of them never asks for the class.

Names are of any visible characters. Those of an inspector's marks are left out, since no
page shows them.
-/

namespace AuthoredStyle.Sheet

open Selector (Asks Finds Writes escape escapeChar)
open Text (Solid)

def classSheet (name : String) : String :=
  "." ++ String.ofList (escape name.toList) ++ " \x7b margin: 1px \x7d"

/-- The sheet makes one plain rule and nothing else, and the rule's selector finds the
elements of the class. -/
def FoundByEscape (name : String) : Prop :=
  ∃ r, read (classSheet name) "" = { plain := [r] } ∧ Finds r.selector name

/-- What a backslash does not protect is absent, or stands inside brackets. -/
structure Survives (name : List Char) : Prop where
  unbroken : Unbroken 0 name
  commas : CommasInside 0 name = true
  whole : '>' ∉ name

theorem survives_iff {name : List Char} :
    Survives name ↔
      (name.all (· ∉ ['"', '\'', '{', '}']) = true ∧ SemicolonsInside 0 name = true) ∧
        CommasInside 0 name = true ∧ '>' ∉ name := by
  have free : name.all (· ∉ ['"', '\'', '{', '}']) = true ↔
      ∀ c ∈ name, c ∉ ['"', '\'', '{', '}'] := by
    simp
  rw [free]
  exact ⟨fun ⟨unbroken, commas, whole⟩ => ⟨unbroken, commas, whole⟩,
    fun ⟨unbroken, commas, whole⟩ => ⟨unbroken, commas, whole⟩⟩

instance : DecidablePred Survives := fun _ => decidable_of_iff' _ survives_iff

/-! ## Reading the sheet -/

section Reading

variable {name : String}

theorem toList_classSheet :
    (classSheet name).toList = '.' :: escape name.toList ++ margin := by
  unfold classSheet margin
  simp

theorem opensNoComment_escape (name : List Char) : OpensNoComment (escape name) := by
  induction name with
  | nil => exact opensNoComment_of_not_mem List.not_mem_nil
  | cons c name ih =>
    have here : OpensNoComment (escapeChar c) := by
      rw [opensNoComment_iff, escapeChar]
      split <;> simp
    rw [Selector.escape_cons]
    exact here.append ih (.inr (Selector.head?_escape_ne (by decide) (by decide)))

theorem opensNoComment_classSheet : OpensNoComment (classSheet name).toList := by
  have dot : OpensNoComment ['.'] := opensNoComment_of_not_mem (by decide)
  have behind : OpensNoComment margin := opensNoComment_of_not_mem (by decide)
  rw [toList_classSheet, List.cons_append, ← List.singleton_append]
  exact dot.append ((opensNoComment_escape _).append behind (.inr (by decide))) (.inl (by decide))

/-- Behind the dot. -/
def dotted : Scan := { segment := ['.'] }

theorem dotted_within : dotted.Within ['.'] [] := ⟨rfl, fun _ hc => absurd hc List.not_mem_nil, rfl⟩

theorem dotted_inert : dotted.Inert := ⟨allInert_nil, fun _ hf => absurd hf List.not_mem_nil⟩

theorem pieces_classSheet :
    pieces (classSheet name).toList = ((dotted.run (escape name.toList)).run margin).finish := by
  rw [pieces, toList_classSheet, Scan.run_append]
  rfl

variable (solid : Solid name.toList)
include solid

/-- The whole name is the selector of the sheet, or at most a part of it without the dot. -/
theorem read_classSheet :
    Unbroken 0 name.toList ∧
        read (classSheet name) "" =
          rulesSaid (selectorList ('.' :: escape name.toList)) marginSaid "" ∨
      ¬ Unbroken 0 name.toList ∧ (read (classSheet name) "" = ∅ ∨
        ∃ part, (∀ c ∈ part, Text.isBlank c = false) ∧
          read (classSheet name) "" = rulesSaid (selectorList (escape part)) marginSaid "") := by
  have reads (style : AllStyle (pieces (classSheet name).toList)) :
      read (classSheet name) "" = nestedRules "" [] (pieces (classSheet name).toList) :=
    read_allStyle opensNoComment_classSheet style
  rw [pieces_classSheet] at reads
  rcases dotted_within.run_escape dotted_inert solid.2 with
    ⟨unbroken, parens, whole⟩ | ⟨broken, breaks⟩
  · have within : (dotted.run (escape name.toList)).Within ['.'] name.toList := by
      rw [whole]
      exact ⟨rfl, solid.2, by simp [dotted]⟩
    have inert : (dotted.run (escape name.toList)).Inert := by
      rw [whole]
      exact ⟨dotted_inert.done, dotted_inert.frames⟩
    have outside : (dotted.run (escape name.toList)).frames = [] := by rw [whole]; rfl
    obtain ⟨style, rules⟩ := within.rules_margin inert (.inr rfl) outside ""
    exact .inl ⟨unbroken, (reads style).trans rules⟩
  · obtain ⟨style, rules⟩ := breaks.rules_margin ""
    rw [← reads style] at rules
    exact .inr ⟨broken, rules⟩

end Reading

/-! ## Names that come through -/

section Found

variable {name : List Char}

/-- The first field behind the dot is the whole name or a shorter one; the others have no
dot. -/
theorem of_mem_commaFields_led {f : List Char} (hf : f ∈ commaFields 0 ('.' :: escape name)) :
    (∃ text v, f = '.' :: text ∧ Writes text v ∧ (∀ c ∈ v, c ∈ name) ∧
        (CommasInside 0 name = true ∧ v = name ∨ v.length < name.length)) ∨
      ∃ v, Writes f v ∧ ∀ c ∈ v, c ∈ name := by
  have dot : IsSelectorChar '.' := by decide
  rcases commaFields_escape 0 name with ⟨inside, whole⟩ | ⟨-, x, y, split, cut⟩
  · rw [commaFields_cons dot whole] at hf
    exact .inl ⟨_, name, List.mem_singleton.mp hf, .inl rfl, fun _ hc => hc, .inl ⟨inside, rfl⟩⟩
  · have short : x.length < name.length := by
      rw [split, List.length_append, List.length_cons]
      omega
    rw [commaFields_cons dot cut] at hf
    rcases List.mem_cons.mp hf with rfl | hf
    · exact .inl ⟨_, x, rfl, .inr rfl, fun c hc => by simp [split, hc], .inr short⟩
    · obtain ⟨v, writes, within⟩ := writes_of_mem_commaFields 0 f hf
      exact .inr ⟨v, writes, fun c hc => by simp [split, within c hc]⟩

variable (solid : Solid name)
include solid

theorem isBare_class : IsBare ('.' :: escape name) := isBare_led (.inl rfl) solid.2

theorem selectorList_class (commas : CommasInside 0 name = true) :
    selectorList ('.' :: escape name) = ['.' :: escape name] := by
  rcases commaFields_escape 0 name with ⟨-, whole⟩ | ⟨outside, -⟩
  · have dot : IsSelectorChar '.' := by decide
    rw [selectorList, commaFields_cons dot whole, List.map_singleton,
      collapse_visible (isBare_class solid).1]
    rfl
  · rw [commas] at outside
    cases outside

theorem isGeneric_class : isGeneric ('.' :: escape name) = false := by
  rw [isGeneric, trim_visible (isBare_class solid).1]
  simp

theorem isBare_of_mem_commaFields {f : List Char} (hf : f ∈ commaFields 0 ('.' :: escape name)) :
    IsBare f := by
  rcases of_mem_commaFields_led hf with ⟨text, v, rfl, writes, within, -⟩ | ⟨v, writes, within⟩
  · exact isBare_led writes fun c hc => solid.2 c (within c hc)
  · exact isBare_writes writes fun c hc => solid.2 c (within c hc)

end Found

section Exactness

variable {name : String} {said : List (List Char)} {file : String} {r : PlainRule}

/-- A selector made of a part of a name without its dot asks for no class. -/
theorem not_asks_of_part {part : List Char} (visible : ∀ c ∈ part, Text.isBlank c = false)
    (hr : r ∈ (rulesSaid (selectorList (escape part)) said file).plain) :
    ¬ Asks r.selector name := by
  have seen {v : List Char} (within : ∀ c ∈ v, c ∈ part) : ∀ c ∈ v, Text.isBlank c = false :=
    fun c hc => visible c (within c hc)
  have listed := selector_mem_commaFields (fun f hf => by
    obtain ⟨v, writes, within⟩ := writes_of_mem_commaFields 0 f hf
    exact isBare_writes writes (seen within)) hr
  obtain ⟨v, writes, within⟩ := writes_of_mem_commaFields 0 _ listed
  exact writes.not_asks (seen within)

variable (solid : Solid name.toList)
include solid

/-- What is cut off behind the dot asks for less than the name. -/
theorem whole_of_asks
    (hr : r ∈ (rulesSaid (selectorList ('.' :: escape name.toList)) said file).plain)
    (asks : Asks r.selector name) :
    CommasInside 0 name.toList = true ∧ '>' ∉ name.toList := by
  have listed := selector_mem_commaFields (fun f hf => isBare_of_mem_commaFields solid hf) hr
  rcases of_mem_commaFields_led listed with
    ⟨text, v, led, writes, within, long⟩ | ⟨v, writes, within⟩
  · rcases writes.asks_led (fun c hc => solid.2 c (within c hc)) led asks with ⟨rfl, whole⟩ | short
    · exact ⟨(long.resolve_right (Nat.lt_irrefl _)).1, whole⟩
    · rcases long with ⟨-, rfl⟩ | shorter
      · exact absurd short (Nat.lt_irrefl _)
      · omega
  · exact absurd asks (writes.not_asks fun c hc => solid.2 c (within c hc))

theorem foundByEscape_of_survives (survives : Survives name.toList) : FoundByEscape name := by
  have said : declarations marginSaid = [("margin", "1px")] := by decide +kernel
  rcases read_classSheet solid with ⟨-, rules⟩ | ⟨broken, -⟩
  · rw [selectorList_class solid survives.commas, rulesSaid, said] at rules
    simp only [List.isEmpty_cons, Bool.false_eq_true, if_false, List.map_singleton] at rules
    rw [ruleOf_bare (isBare_class solid), isGeneric_class solid] at rules
    refine ⟨_, rules.trans (RuleSet.append_empty _), fun s h inside => ?_⟩
    have led : (String.ofList ('.' :: escape name.toList)).toList = '.' :: escape name.toList :=
      String.toList_ofList
    have one := Selector.parts_escaped solid survives.whole led
    have alone : ((∅ : NameSet).insert name).toList = [name] := rfl
    rw [Selector.selects_of_parts one, String.ofList_toList]
    simp [Selector.Part.holdsOf, alone]
  · exact absurd survives.unbroken broken

theorem survives_of_foundByEscape (shown : Page.isMarker name = false)
    (found : FoundByEscape name) : Survives name.toList := by
  obtain ⟨r, rules, finds⟩ := found
  have asks := finds.asks shown
  have made : r ∈ (read (classSheet name) "").plain := by
    rw [rules]
    exact List.mem_singleton_self r
  rcases read_classSheet solid with ⟨unbroken, whole⟩ | ⟨-, none | ⟨part, visible, rest⟩⟩
  · rw [whole] at made
    obtain ⟨commas, whole⟩ := whole_of_asks solid made asks
    exact ⟨unbroken, commas, whole⟩
  · rw [none] at made
    exact absurd made List.not_mem_nil
  · rw [rest] at made
    exact absurd asks (not_asks_of_part visible made)

end Exactness

/-- An escaped class name is read and matched as it is exactly if no quote, brace or part
end stands in it, its semicolons stand in parentheses, and its commas in brackets. -/
theorem foundByEscape_iff {name : String} (solid : Solid name.toList)
    (shown : Page.isMarker name = false) : FoundByEscape name ↔ Survives name.toList :=
  ⟨survives_of_foundByEscape solid shown, foundByEscape_of_survives solid⟩

theorem foundByEscape_of_utilities :
    FoundByEscape "md:w-1/2" ∧ FoundByEscape "grid-cols-[1fr,2fr]" ∧
      ¬ FoundByEscape "[&>p]:mt-4" := by
  refine ⟨(foundByEscape_iff ?_ ?_).mpr ?_, (foundByEscape_iff ?_ ?_).mpr ?_,
    mt (foundByEscape_iff ?_ ?_).mp ?_⟩ <;> decide +kernel

/-- The escaped form of a class with a `>` in it does not find the class. -/
theorem escaped_greater_not_found : ¬ FoundByEscape "a>b" := by
  rintro ⟨r, rules, finds⟩
  have made : read (classSheet "a>b") "" = { plain := [⟨".a\\>b", .ofList ["margin"], ""⟩] } := by
    decide +kernel
  rw [made] at rules
  cases rules
  have found := (finds (Selector.lone none ["a>b"]) 0 Nat.zero_lt_one).mpr (by decide +kernel)
  have lost : Selector.selects ".a\\>b" (.ofSnapshot (Selector.lone none ["a>b"])) 0 = false := by
    decide +kernel
  rw [lost] at found
  cases found

end AuthoredStyle.Sheet
