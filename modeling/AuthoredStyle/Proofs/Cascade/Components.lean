import AuthoredStyle.Proofs.Cascade.Parts
import AuthoredStyle.Proofs.Text.Bytes

/-!
# Cutting a value into parts

A value is cut at its blanks outside parentheses, and a closing parenthesis without an opening
one counts for nothing. A part that is left open takes up all that follows, so only the last one
can be. Hence the parts, joined with single spaces, are cut again where they were joined,
whatever the value. The cuts are made at offsets that are kept while the value is read; they all
fall between characters.
-/

namespace AuthoredStyle.Cascade

open Text (Blank Fault size size_append slice slice_append)

variable {depth : Nat} {part w s : List Char} {ws : List (List Char)}

/-! ## Exactly these parts -/

/-- A text is made of these parts: nothing but blanks stands in front of each, and none of them
has a blank outside its parentheses. A part ends with the text, or it is closed and a blank
follows. -/
inductive IsCutInto : List Char → List (List Char) → Prop
  | blank {gap : List Char} (blank : Blank gap) : IsCutInto gap []
  | last {gap w : List Char} (blank : Blank gap) (some : w ≠ []) (whole : Whole 0 w) :
      IsCutInto (gap ++ w) [w]
  | next {gap w s : List Char} {c : Char} {ws : List (List Char)} (blank : Blank gap)
      (some : w ≠ []) (whole : Whole 0 w) (closed : depthAfter 0 w = 0)
      (ends : Text.isBlank c = true) (rest : IsCutInto s ws) :
      IsCutInto (gap ++ (w ++ c :: s)) (w :: ws)

theorem IsCutInto.cons_blank {c : Char} (blank : Text.isBlank c = true) (cut : IsCutInto s ws) :
    IsCutInto (c :: s) ws := by
  have more {gap : List Char} (rest : Blank gap) : Blank (c :: gap) :=
    List.forall_mem_cons.mpr ⟨blank, rest⟩
  cases cut with
  | blank gap => exact .blank (more gap)
  | last gap some whole => exact .last (more gap) some whole
  | next gap some whole closed ends rest => exact .next (more gap) some whole closed ends rest

theorem depthAfter_snoc (depth : Nat) (s : List Char) (c : Char) :
    depthAfter depth (s ++ [c]) = depthBehind (depthAfter depth s) c := by
  rw [depthAfter, List.foldl_append]
  rfl

theorem Whole.snoc {c : Char} (whole : Whole depth w)
    (inside : ¬ (depthAfter depth w = 0 ∧ Text.isBlank c = true)) : Whole depth (w ++ [c]) := by
  induction w generalizing depth with
  | nil => exact ⟨inside, trivial⟩
  | cons d w ih => exact ⟨whole.1, ih whole.2 inside⟩

/-- What is read: `part` is the beginning of the first part, or nothing yet. -/
theorem isCutInto_componentsFrom (part : List Char) (whole : Whole 0 part.reverse) (s : List Char) :
    IsCutInto (part.reverse ++ s) (componentsFrom (depthAfter 0 part.reverse) part s) := by
  induction s generalizing part with
  | nil =>
    rw [componentsFrom_nil, List.append_nil]
    split
    · next none =>
      rw [none]
      exact .blank Text.blank_nil
    · next some => exact .last Text.blank_nil (by simpa using some) whole
  | cons c s ih =>
    by_cases bare : depthAfter 0 part.reverse = 0 ∧ Text.isBlank c = true
    · obtain ⟨closed, blank⟩ := bare
      -- the blank ends the part, or is one more in front of it
      have rest : IsCutInto s (componentsFrom 0 [] s) := ih [] trivial
      rw [closed, componentsFrom_blank blank, componentsFrom_nil]
      split
      · next none =>
        rw [none]
        exact rest.cons_blank blank
      · next some => exact .next Text.blank_nil (by simpa using some) whole closed blank rest
    · have onward := ih (c :: part)
      rw [List.reverse_cons, depthAfter_snoc, List.append_assoc] at onward
      rw [componentsFrom_inside bare]
      exact onward (whole.snoc bare)

theorem componentsFrom_gap {gap : List Char} (blank : Blank gap) (s : List Char) :
    componentsFrom 0 [] (gap ++ s) = componentsFrom 0 [] s := by
  induction gap with
  | nil => rfl
  | cons c gap ih =>
    obtain ⟨here, later⟩ := List.forall_mem_cons.mp blank
    rw [List.cons_append, componentsFrom_blank here, ih later]
    rfl

theorem IsCutInto.componentsFrom_eq (cut : IsCutInto s ws) : componentsFrom 0 [] s = ws := by
  induction cut with
  | @blank gap blank =>
    have none := componentsFrom_gap blank []
    rwa [List.append_nil] at none
  | last blank some whole =>
    rw [componentsFrom_gap blank]
    exact componentsFrom_eq_singleton_iff.mpr ⟨some, whole⟩
  | next blank some whole closed ends rest ih =>
    rw [componentsFrom_gap blank, componentsFrom_closed some whole closed ends, ih]

theorem componentsFrom_eq_iff : componentsFrom 0 [] s = ws ↔ IsCutInto s ws := by
  constructor
  · rintro rfl
    exact isCutInto_componentsFrom [] trivial s
  · exact IsCutInto.componentsFrom_eq

/-! ## What follows for the parts -/

theorem IsCutInto.allWhole (cut : IsCutInto s ws) : AllWhole ws := by
  induction cut with
  | blank => exact fun w hw => absurd hw List.not_mem_nil
  | last blank some whole => exact List.forall_mem_singleton.mpr ⟨some, whole⟩
  | next blank some whole closed ends rest ih => exact List.forall_mem_cons.mpr ⟨⟨some, whole⟩, ih⟩

theorem IsCutInto.isInfix (cut : IsCutInto s ws) : ∀ w ∈ ws, w <:+: s := by
  induction cut with
  | blank => exact fun w hw => absurd hw List.not_mem_nil
  | last => exact List.forall_mem_singleton.mpr (List.suffix_append _ _).isInfix
  | @next gap w s c ws blank some whole closed ends rest ih =>
    refine List.forall_mem_cons.mpr ⟨⟨gap, c :: s, by simp⟩, fun v hv => (ih v hv).trans ?_⟩
    exact ⟨gap ++ w ++ [c], [], by simp⟩

/-- A part that is left open is the last one. -/
theorem IsCutInto.closed (cut : IsCutInto s ws) : ∀ w ∈ ws.dropLast, depthAfter 0 w = 0 := by
  induction cut with
  | blank => exact fun w hw => absurd hw List.not_mem_nil
  | last => exact fun w hw => absurd hw List.not_mem_nil
  | @next gap w s c ws blank some whole closed ends rest ih =>
    cases ws with
    | nil => exact fun w hw => absurd hw List.not_mem_nil
    | cons v ws =>
      rw [List.dropLast_cons_cons]
      exact List.forall_mem_cons.mpr ⟨closed, ih⟩

/-! ## By offsets -/

/-- The part that is being read up to `stop`, if there is one; it starts at `start`. -/
def partTo (text : List Char) (start : Option Nat) (stop : Nat) :
    Except Fault (List (List Char)) :=
  match start with
  | none => .ok []
  | some first => do
    let part ← slice text first stop
    return [part]

/-- The parts of a text from the character at `i` on, where `s` begins. -/
def splitFrom (text : List Char) (depth : Nat) (start : Option Nat) (i : Nat) :
    List Char → Except Fault (List (List Char))
  | [] => partTo text start (size text)
  | c :: s =>
    if depth = 0 ∧ Text.isBlank c = true then do
      let ended ← partTo text start i
      let later ← splitFrom text 0 none (i + c.utf8Size) s
      return ended ++ later
    else splitFrom text (depthBehind depth c) (some (start.getD i)) (i + c.utf8Size) s

def splitComponents (text : List Char) : Except Fault (List (List Char)) :=
  splitFrom text 0 none 0 text

/-- Where a part starts that is read behind `front`, once it has a character. -/
def startOf (front part : List Char) : Option Nat := if part = [] then none else some (size front)

theorem partTo_eq (depth : Nat) (front part s : List Char) :
    partTo (front ++ part.reverse ++ s) (startOf front part) (size (front ++ part.reverse)) =
      .ok (componentsFrom depth part []) := by
  rw [componentsFrom_nil, startOf]
  split
  · rfl
  · rw [partTo, size_append, slice_append]
    rfl

theorem startOf_getD (front part : List Char) :
    (startOf front part).getD (size (front ++ part.reverse)) = size front := by
  rw [startOf]
  split
  · next none => simp [none]
  · rfl

theorem splitFrom_eq (front : List Char) (depth : Nat) (part s : List Char) :
    splitFrom (front ++ part.reverse ++ s) depth (startOf front part)
      (size (front ++ part.reverse)) s = .ok (componentsFrom depth part s) := by
  induction s generalizing front depth part with
  | nil =>
    have ended := partTo_eq depth front part []
    rw [List.append_nil] at ended ⊢
    exact ended
  | cons c s ih =>
    have behind (a : List Char) : size a + c.utf8Size = size (a ++ [c]) := by simp
    rw [splitFrom, behind]
    split
    · next bare =>
      obtain ⟨rfl, blank⟩ := bare
      have later : splitFrom (front ++ part.reverse ++ c :: s) 0 none
          (size (front ++ part.reverse ++ [c])) s = .ok (componentsFrom 0 [] s) := by
        simpa [startOf] using ih (front ++ part.reverse ++ [c]) 0 []
      rw [partTo_eq 0, later, componentsFrom_blank blank]
      rfl
    · next inside =>
      have onward := ih front (depthBehind depth c) (c :: part)
      rw [List.reverse_cons, ← List.append_assoc, List.append_assoc _ [c]] at onward
      rw [startOf_getD, componentsFrom_inside inside]
      exact onward

theorem splitComponents_eq (text : List Char) :
    splitComponents text = .ok (componentsFrom 0 [] text) := splitFrom_eq [] 0 [] text

/-! ## Values -/

theorem map_toList_components (v : String) :
    (components v).map String.toList = componentsFrom 0 [] v.toList := by
  rw [components, List.map_map]
  simp [Function.comp_def]

theorem components_eq_iff {v : String} {ws : List String} :
    components v = ws ↔ IsCutInto v.toList (ws.map String.toList) := by
  rw [← componentsFrom_eq_iff, ← map_toList_components]
  exact (List.map_inj_right fun _ _ => String.toList_inj.mp).symm

/-- A value has just the parts that it is made of: pieces of it that are not empty and hold no
blank outside parentheses, and which together are the value less its blanks outside parentheses.
They are found without a cut that falls inside a character. Joined with single spaces they are
the same parts again, also where a parenthesis is missing. -/
theorem components_stable (v : String) :
    splitComponents v.toList = .ok ((components v).map String.toList) ∧
      (∀ ws, components v = ws ↔ IsCutInto v.toList (ws.map String.toList)) ∧
      (∀ w ∈ components v, w ≠ "" ∧ w.toList <:+: v.toList ∧ Whole 0 w.toList) ∧
      (components v).flatMap String.toList = held 0 v.toList ∧
      components (" ".intercalate (components v)) = components v := by
  have read := map_toList_components v
  have cut : IsCutInto v.toList ((components v).map String.toList) := components_eq_iff.mp rfl
  refine ⟨?_, fun ws => components_eq_iff, fun w hw => ?_, ?_, ?_⟩
  · rw [splitComponents_eq, read]
  · have among := List.mem_map_of_mem (f := String.toList) hw
    obtain ⟨some, whole⟩ := cut.allWhole _ among
    refine ⟨?_, cut.isInfix _ among, whole⟩
    rintro rfl
    exact some rfl
  · rw [List.flatMap_def, read, flatten_componentsFrom]
    rfl
  · rw [components_intercalate_eq, componentsFrom_intercalate cut.allWhole cut.closed, List.map_map]
    simp

/-- A parenthesis that closes nothing, and one that is never closed. -/
theorem components_stable_of_unbalanced :
    "calc(1px + " ∈ components ")  0\tcalc(1px + " ∧ Whole 0 "calc(1px + ".toList ∧
      components ") 0 calc(1px + " = [")", "0", "calc(1px + "] := by
  have parts : components ")  0\tcalc(1px + " = [")", "0", "calc(1px + "] := by decide
  obtain ⟨-, -, each, -, again⟩ := components_stable ")  0\tcalc(1px + "
  rw [parts] at each again ⊢
  have last : "calc(1px + " ∈ [")", "0", "calc(1px + "] := by decide
  exact ⟨last, (each _ last).2.2, again⟩

end AuthoredStyle.Cascade
