import AuthoredStyle.Proofs.Decimal.Whole
import AuthoredStyle.Proofs.Page.Descent
import AuthoredStyle.Proofs.Text.Trim

/-!
# Paths that are read and paths that are written

A path may be written in many ways: with empty steps, with tags in any case,
with or without the place 1, with a plus sign or leading noughts in a place. The
canonical form of a path is told here without looking at a page. Whatever way a
path of an element is written, the element's own path is its canonical form, and
an element's own path leads back to it unless a tag holds a mark of paths.

Places are read as 64 bit numbers, so an element's path is known to lead back to
it only when its own number is one. Nothing is claimed about tags with marks:
their paths are cut elsewhere and lead to another element or to none.
-/

namespace AuthoredStyle.Page

/-- The tag in lower case and the place in plain digits, 1 when none is given. -/
def canonicalStep (s : List Char) : List Char :=
  Text.lower (s.takeWhile (· ≠ '[')) ++ '[' :: place ++ [']']
where
  place : List Char :=
    match s.dropWhile (· ≠ '[') with
    | [] => ['1']
    | _ :: rest => Decimal.plain (Decimal.withoutPlus rest.dropLast)

/-- Each step that is not empty in its canonical form, behind a slash. -/
def canonical (path : String) : String :=
  String.ofList ((Text.runs (· = '/') path.toList).flatMap fun s => '/' :: canonicalStep s)

/-! ## Steps -/

theorem toList_text (s : Step) :
    s.text.toList = s.tag.toList ++ '[' :: Nat.toDigits 10 s.place ++ [']'] := by
  simp [Step.text, Nat.repr_eq_ofList_toDigits]

theorem canonicalStep_bare {s : List Char} (unmarked : '[' ∉ s) :
    canonicalStep s = Text.lower s ++ ['[', '1', ']'] := by
  have passed : ∀ c ∈ s, decide (c ≠ '[') = true := by
    intro c hc
    simpa using ne_of_mem_of_not_mem hc unmarked
  rw [canonicalStep, canonicalStep.place, List.takeWhile_eq_self_iff.mpr passed,
    List.dropWhile_eq_nil_iff.mpr passed]
  simp

theorem canonicalStep_placed {tag : List Char} (unmarked : '[' ∉ tag) (digits : List Char) :
    canonicalStep (tag ++ '[' :: (digits ++ [']'])) =
      Text.lower tag ++ '[' :: Decimal.plain (Decimal.withoutPlus digits) ++ [']'] := by
  have passed : ∀ c ∈ tag, decide (c ≠ '[') = true := by
    intro c hc
    simpa using ne_of_mem_of_not_mem hc unmarked
  rw [canonicalStep, canonicalStep.place, List.takeWhile_append_of_pos passed,
    List.dropWhile_append_of_pos passed]
  simp

theorem toList_text_of_step? {s : List Char} {step : Step} (h : step? s = some step) :
    step.text.toList = canonicalStep s := by
  rw [step?] at h
  by_cases marked : '[' ∈ s
  · obtain ⟨tag, rest, rfl, unmarked⟩ := List.eq_append_cons_of_mem marked
    rw [Text.cut?_first rest unmarked] at h
    obtain ⟨digits, closed, h⟩ := Option.bind_eq_some_iff.mp h
    obtain ⟨place, read, ⟨⟩⟩ := Option.bind_eq_some_iff.mp h
    rw [toList_text, Text.eq_of_dropEnding? closed, canonicalStep_placed unmarked,
      ← Decimal.toDigits_of_word? read, String.toList_ofList]
  · rw [Text.cut?_absent marked] at h
    cases h
    have one : Nat.toDigits 10 1 = ['1'] := rfl
    rw [toList_text, canonicalStep_bare marked, String.toList_ofList, one]
    simp

/-- A step's text is read back, whatever else its tag holds. -/
theorem step?_text {s : Step} (lowered : Text.lower s.tag.toList = s.tag.toList)
    (unmarked : '[' ∉ s.tag.toList) (small : s.place < Nat.pow 2 64) :
    step? s.text.toList = some s := by
  rw [toList_text, List.append_assoc, List.cons_append, step?, Text.cut?_first _ unmarked]
  simp only [Text.dropEnding?_append, Option.bind_eq_bind, Option.bind_some,
    Decimal.word?_toDigits small, lowered, String.ofList_toList]
  rfl

/-! ## Paths -/

theorem toList_pathText (steps : List Step) :
    (pathText steps).toList = steps.flatMap fun s => '/' :: s.text.toList := by
  induction steps with
  | nil => rfl
  | cons s steps ih =>
    rw [pathText, List.map_cons, String.join_cons, ← pathText]
    simp [ih]

theorem pathText_of_mapM_step? {parts : List (List Char)} {steps : List Step}
    (h : parts.mapM step? = some steps) :
    (pathText steps).toList = parts.flatMap fun s => '/' :: canonicalStep s := by
  rw [toList_pathText]
  induction parts generalizing steps with
  | nil =>
    cases h
    rfl
  | cons s parts ih =>
    rw [List.mapM_cons] at h
    obtain ⟨step, read, h⟩ := Option.bind_eq_some_iff.mp h
    obtain ⟨rest, readRest, ⟨⟩⟩ := Option.bind_eq_some_iff.mp h
    rw [List.flatMap_cons, List.flatMap_cons, ih readRest, toList_text_of_step? read]

theorem slash_not_mem_text {s : Step} (unmarked : '/' ∉ s.tag.toList) : '/' ∉ s.text.toList := by
  rw [toList_text]
  have numeral : '/' ∉ Nat.toDigits 10 s.place := fun mem =>
    absurd (Nat.isDigit_of_mem_toDigits (by decide) (by decide) mem) (by decide)
  simp [unmarked, numeral]

theorem runs_pathText {steps : List Step} (unmarked : ∀ s ∈ steps, '/' ∉ s.tag.toList) :
    Text.runs (· = '/') (pathText steps).toList = steps.map (·.text.toList) := by
  have led : (pathText steps).toList = (steps.map (·.text.toList)).flatMap ('/' :: ·) := by
    rw [toList_pathText, List.flatMap_map]
  rw [led]
  refine Text.runs_led (by simp) ?_
  simp only [List.mem_map, forall_exists_index, and_imp, forall_apply_eq_imp_iff₂]
  intro s hs
  refine ⟨by simp [toList_text], fun c hc => ?_⟩
  simpa using ne_of_mem_of_not_mem hc (slash_not_mem_text (unmarked s hs))

/-- Steps with sound tags and places are read back from their path. -/
theorem mapM_step?_pathText {steps : List Step}
    (sound : ∀ s ∈ steps, Text.lower s.tag.toList = s.tag.toList ∧ '/' ∉ s.tag.toList ∧
      '[' ∉ s.tag.toList ∧ s.place < Nat.pow 2 64) :
    (Text.runs (· = '/') (pathText steps).toList).mapM step? = some steps := by
  rw [runs_pathText fun s hs => (sound s hs).2.1]
  induction steps with
  | nil => rfl
  | cons s steps ih =>
    obtain ⟨lowered, -, unmarked, small⟩ := sound s List.mem_cons_self
    rw [List.map_cons, List.mapM_cons, step?_text lowered unmarked small,
      ih fun r hr => sound r (List.mem_cons_of_mem s hr)]
    rfl

/-! ## Elements -/

variable {p : Page} {t : ElementSnapshot}

theorem Numbers.lower_tag (n : p.Numbers t) {h : Nat} (inside : h < p.size) :
    Text.lower (p.tag h).toList = (p.tag h).toList := by
  obtain ⟨above, t', held⟩ := n.exists_holds inside
  obtain ⟨tag, id, classes, computed, children⟩ := t'
  rw [Holds] at held
  simp [Page.tag, held.1, Text.lower_lower]

/-- Counting leaves room: at place `k` of a growing list stands a number of at
least `k` more than the lower bound. -/
theorem add_le_of_getElem? {l : List Nat} (growing : l.Pairwise (· < ·)) {low k c : Nat}
    (above : ∀ x ∈ l, low ≤ x) (found : l[k]? = some c) : low + k ≤ c := by
  induction l generalizing low k with
  | nil => simp at found
  | cons x l ih =>
    obtain ⟨first, rest⟩ := List.pairwise_cons.mp growing
    have start := above x List.mem_cons_self
    cases k with
    | zero =>
      have : x = c := by simpa using found
      omega
    | succ k =>
      have beyond : x + 1 + k ≤ c := ih rest first (by simpa using found)
      omega

/-- An element's place is at most its number, as the root is nobody's sibling. -/
theorem Numbers.place_stepOf_le (n : p.Numbers t) {a c : Nat} (link : p.parent? c = some a) :
    (p.stepOf c).place ≤ c := by
  have growing := n.children_increasing a
  have found := (getElem?_filter_eq_some_iff (q := (p.tag · = p.tag c)) (n.children_nodup a)).mpr
    ⟨n.mem_children_iff.mpr link, by simp, rfl⟩
  have later : ∀ x ∈ (p.children a).filter (p.tag · = p.tag c), 1 ≤ x := fun x hx =>
    Nat.lt_of_le_of_lt (Nat.zero_le a)
      (parent?_lt (n.mem_children_iff.mp (List.mem_of_mem_filter hx)))
  have room := add_le_of_getElem? (growing.filter _) later found
  rw [stepOf_child link]
  exact Nat.le_trans (Nat.le_of_eq (Nat.add_comm _ 1)) room

/-- Each step to an element is that of the element itself or of one before it. -/
theorem exists_of_mem_stepsTo {h : Handle} {s : Step} (hs : s ∈ p.stepsTo h) :
    ∃ a ≤ h, s = p.stepOf a := by
  simp only [stepsTo, List.mem_map, List.mem_reverse, List.mem_cons, mem_ancestors_iff] at hs
  obtain ⟨a, rfl | above, rfl⟩ := hs
  · exact ⟨a, Nat.le_refl a, rfl⟩
  · refine ⟨a, ?_, rfl⟩
    induction above with
    | single link => exact Nat.le_of_lt (parent?_lt link)
    | tail _ link ih => exact Nat.le_trans (Nat.le_of_lt (parent?_lt link)) ih

theorem Numbers.resolve?_eq_some_iff (n : p.Numbers t) {path : String} {h : Nat} :
    p.resolve? path = some h ↔
      h < p.size ∧ (Text.runs (· = '/') path.toList).mapM step? = some (p.stepsTo h) := by
  rw [resolve?_eq, Option.bind_eq_some_iff]
  simp only [n.follow?_eq_some_iff]
  constructor
  · rintro ⟨steps, read, inside, rfl⟩
    exact ⟨inside, read⟩
  · rintro ⟨inside, read⟩
    exact ⟨_, read, inside, rfl⟩

/-- No tag of the page holds a mark that paths are made of. -/
def PlainTags (p : Page) : Prop :=
  ∀ h < p.size, '/' ∉ (p.tag h).toList ∧ '[' ∉ (p.tag h).toList

instance (p : Page) : Decidable p.PlainTags :=
  inferInstanceAs (Decidable (∀ h < p.size, '/' ∉ (p.tag h).toList ∧ '[' ∉ (p.tag h).toList))

theorem tag_stepOf (h : Handle) : (p.stepOf h).tag = p.tag h := by
  cases link : p.parent? h with
  | none => rw [stepOf_root link]
  | some a => rw [stepOf_child link]

theorem Numbers.resolve?_pathOf (n : p.Numbers t) (plain : p.PlainTags) {h : Nat}
    (inside : h < p.size) (small : h < Nat.pow 2 64) : p.resolve? (p.pathOf h) = some h := by
  refine n.resolve?_eq_some_iff.mpr ⟨inside, mapM_step?_pathText fun s hs => ?_⟩
  obtain ⟨a, low, rfl⟩ := exists_of_mem_stepsTo hs
  have inside := Nat.lt_of_le_of_lt low inside
  rw [tag_stepOf]
  refine ⟨n.lower_tag inside, (plain a inside).1, (plain a inside).2, ?_⟩
  cases link : p.parent? a with
  | none =>
    rw [stepOf_root link]
    exact Nat.one_lt_two_pow (by decide)
  | some b => exact Nat.lt_of_le_of_lt (Nat.le_trans (n.place_stepOf_le link) low) small

theorem Numbers.pathOf_of_resolve? (n : p.Numbers t) {path : String} {h : Nat}
    (named : p.resolve? path = some h) : p.pathOf h = canonical path := by
  have read := (n.resolve?_eq_some_iff.mp named).2
  rw [canonical, ← pathText_of_mapM_step? read, String.ofList_toList]
  rfl

/-- An element's own path leads back to it unless a tag holds a mark of paths, so
elements have paths of their own; and whichever way a path of an element is
written, the element's own path is its canonical form. -/
theorem resolve?_inverts_pathOf (s : Snapshot) :
    let p := ofSnapshot s
    (p.PlainTags →
      (∀ h : UInt64, h.toNat < p.size → p.resolve? (p.pathOf h.toNat) = some h.toNat) ∧
        ∀ g h : UInt64, g.toNat < p.size → h.toNat < p.size →
          p.pathOf g.toNat = p.pathOf h.toNat → g = h) ∧
      ∀ (path : String) (h : Handle), p.resolve? path = some h → p.pathOf h = canonical path := by
  intro p
  have n : p.Numbers s.document := numbers_ofSnapshot s
  refine ⟨fun plain => ?_, fun path h named => n.pathOf_of_resolve? named⟩
  have back (h : UInt64) (inside : h.toNat < p.size) :
      p.resolve? (p.pathOf h.toNat) = some h.toNat :=
    n.resolve?_pathOf plain inside h.toNat_lt
  refine ⟨back, fun g h hg hh same => ?_⟩
  have := back g hg
  rw [same, back h hh] at this
  exact UInt64.toNat_inj.mp (Option.some.inj this).symm

/-- A document element over a paragraph, a division and another paragraph. -/
def twoParagraphs : Snapshot :=
  ⟨{ tag := "HTML", children := [{ tag := "p" }, { tag := "div" }, { tag := "P" }] }, []⟩

/-- The last paragraph of three children, by its own path and by another spelling. -/
theorem resolve?_inverts_pathOf_second_paragraph :
    let p := ofSnapshot twoParagraphs
    p.PlainTags ∧ p.resolve? "//HTML/P[+02]" = some 3 ∧ p.pathOf 3 = "/html[1]/p[2]" ∧
      p.resolve? "/html[1]/p[2]" = some 3 ∧ p.pathOf 1 ≠ p.pathOf 3 := by
  intro p
  have plain : p.PlainTags := by decide
  have spelt : p.resolve? "//HTML/P[+02]" = some 3 := by decide
  obtain ⟨own, canonised⟩ := resolve?_inverts_pathOf twoParagraphs
  obtain ⟨back, distinct⟩ := own plain
  have written : canonical "//HTML/P[+02]" = "/html[1]/p[2]" := by decide
  have path : p.pathOf 3 = "/html[1]/p[2]" := (canonised _ 3 spelt).trans written
  have returned : p.resolve? "/html[1]/p[2]" = some 3 := path ▸ back 3 (by decide)
  refine ⟨plain, spelt, path, returned, fun same => ?_⟩
  exact absurd (distinct 1 3 (by decide) (by decide) same) (by decide)

end AuthoredStyle.Page
