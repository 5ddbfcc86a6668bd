import AuthoredStyle.Proofs.Decimal.Figures
import AuthoredStyle.Proofs.Text.Collapse
import AuthoredStyle.Proofs.Value.Joined
import AuthoredStyle.Proofs.Value.Silence

/-!
# Values in authored form

A value that has been turned into authored form is not turned any further. No colour in
hexadecimal makes a call of what stands around it, a call that is left stands as it stood and is
read as it was, and no ratio is a length in pixels. Nothing has to be known about the font size
for this: by none, by nought, by a negative size or by no number a length is not divided at all.
-/

namespace AuthoredStyle.Value

/-! ## Colours -/

section Colours

variable {s t : List Char}

/-- What a colour in hexadecimal is written with. -/
def hexLetters : List Char :=
  ['#', '0', '1', '2', '3', '4', '5', '6', '7', '8', '9', 'a', 'b', 'c', 'd', 'e', 'f']

theorem digitChar_mem {n : Nat} (small : n < 16) : n.digitChar ∈ hexLetters := by
  have all : ∀ n < 16, n.digitChar ∈ hexLetters := by decide
  exact all n small

theorem mem_of_opaqueHex? {arguments hex : List Char} (h : opaqueHex? arguments = some hex) :
    ∀ c ∈ hex, c ∈ hexLetters := by
  obtain ⟨bytes, rfl⟩ := exists_bytes_of_opaqueHex? h
  refine List.forall_mem_cons.mpr ⟨by decide, fun c hc => ?_⟩
  obtain ⟨b, -, hc⟩ := List.mem_flatMap.mp hc
  have byte : b.toNat < 256 := b.toNat_lt
  simp only [hexDigits, List.mem_cons, List.not_mem_nil, or_false] at hc
  rcases hc with rfl | rfl
  · exact digitChar_mem (by omega)
  · exact digitChar_mem (by omega)

/-- A text that stays as it is in front of whatever follows. -/
def Settled (s : List Char) : Prop := ∀ t, hexColours (s ++ t) = s ++ hexColours t

theorem settled_hex {arguments hex : List Char} (h : opaqueHex? arguments = some hex) :
    Settled hex := by
  have letters : ∀ c ∈ hexLetters, c.toLower ≠ 'r' := by simp [hexLetters]
  have plain : ∀ c ∈ hex, c.toLower ≠ 'r' := fun c hc => letters c (mem_of_opaqueHex? h c hc)
  clear h
  intro t
  induction hex with
  | nil => rfl
  | cons c hex ih =>
    obtain ⟨first, others⟩ := List.forall_mem_cons.mp plain
    rw [List.cons_append, hexColours_of_none (call?_eq_none first), ih others, List.cons_append]

theorem settled_call {head arguments : List Char} (named : IsHead head) (first : ')' ∉ arguments)
    (kept : opaqueHex? arguments = none) : Settled (head ++ arguments ++ [')']) := by
  intro t
  have found : call? (head ++ arguments ++ [')'] ++ t) = some (head, arguments, t) :=
    call?_eq_some_iff.mpr ⟨by simp, named, first⟩
  rw [hexColours_of_call found, kept, Option.getD_none]

/-- What stands in front of the first call and the first hash is kept. -/
theorem exists_of_hexColours_eq {w : List Char} (plain : ∀ c ∈ w, c ≠ '#' ∧ c.toLower ≠ 'r')
    (h : hexColours s = w ++ t) : ∃ s', s = w ++ s' ∧ hexColours s' = t := by
  induction w generalizing s with
  | nil => exact ⟨s, rfl, h⟩
  | cons c w ih =>
    obtain ⟨⟨noHash, noCall⟩, others⟩ := List.forall_mem_cons.mp plain
    cases s with
    | nil => simp [hexColours] at h
    | cons d s =>
      cases found : call? (d :: s) with
      | some parts =>
        obtain ⟨head, arguments, rest⟩ := parts
        obtain ⟨-, named, -⟩ := call?_eq_some_iff.mp found
        obtain ⟨r, name, rfl, letter, -⟩ := named.exists_cons
        rw [hexColours_of_call found] at h
        cases hex : opaqueHex? arguments with
        | none =>
          rw [hex, Option.getD_none] at h
          obtain ⟨rfl, -⟩ := List.cons.inj h
          exact absurd letter noCall
        | some text =>
          obtain ⟨bytes, rfl⟩ := exists_bytes_of_opaqueHex? hex
          rw [hex, Option.getD_some] at h
          obtain ⟨rfl, -⟩ := List.cons.inj h
          exact absurd rfl noHash
      | none =>
        rw [hexColours_of_none found] at h
        obtain ⟨rfl, behind⟩ := List.cons.inj h
        obtain ⟨s', rfl, later⟩ := ih others behind
        exact ⟨s', rfl, later⟩

/-- Rewriting makes no call and closes none. -/
theorem call?_hexColours_eq_none {c : Char} (none : call? (c :: s) = none) :
    call? (c :: hexColours s) = .none := by
  rw [Option.eq_none_iff_forall_ne_some]
  rintro ⟨head, arguments, rest⟩ found
  obtain ⟨split, named, -⟩ := call?_eq_some_iff.mp found
  obtain ⟨d, name, rfl, -, letters⟩ := named.exists_cons
  obtain ⟨rfl, behind⟩ := List.cons.inj split
  have plain : ∀ x ∈ name, x ≠ '#' ∧ x.toLower ≠ 'r' := by
    intro x hx
    have letter := letters x hx
    constructor
    · rintro rfl
      exact absurd letter (by decide)
    · intro r
      rw [r] at letter
      exact absurd letter (by decide)
  obtain ⟨s', rfl, later⟩ := exists_of_hexColours_eq plain behind
  have closed : ')' ∈ s' := by
    by_contra unclosed
    rw [hexColours_eq_self unclosed] at later
    simp [later] at unclosed
  obtain ⟨arguments', rest', again⟩ := exists_call? named closed
  cases none.symm.trans again

theorem hexColours_hexColours (s : List Char) : hexColours (hexColours s) = hexColours s := by
  fun_induction hexColours s with
  | case1 => simp [hexColours]
  | case2 c s head arguments rest found ih =>
    obtain ⟨-, named, first⟩ := call?_eq_some_iff.mp found
    have settled : Settled ((opaqueHex? arguments).getD (head ++ arguments ++ [')'])) := by
      cases hex : opaqueHex? arguments with
      | none => exact settled_call named first hex
      | some text => exact settled_hex hex
    rw [settled, ih]
  | case3 c s none ih => rw [hexColours_of_none (call?_hexColours_eq_none none), ih]

end Colours

/-! ## Lengths -/

theorem mem_of_px? {s : List Char} (read : (px? s).isSome) : 'x' ∈ s := by
  obtain ⟨x, found⟩ := Option.isSome_iff_exists.mp read
  obtain ⟨number, dropped, -⟩ := Option.bind_eq_some_iff.mp found
  apply (Text.trim_sublist s).subset
  rw [Text.eq_of_dropEnding? dropped]
  simp

/-- A ratio with a unit is no length in pixels, unless the unit has an `x`. -/
theorem relative_relative (value : String) (fontSize : Float) (unit : String)
    (plain : 'x' ∉ unit.toList) :
    relative (relative value fontSize fun x => ratioText x ++ unit) fontSize
      (fun x => ratioText x ++ unit) = relative value fontSize fun x => ratioText x ++ unit := by
  cases read : px? value.toList with
  | none => simp only [relative, read]
  | some px =>
    by_cases positive : 0 < fontSize
    · have written : px? (ratioText (px / fontSize) ++ unit).toList = none := by
        by_contra other
        have letter := mem_of_px? (Option.isSome_iff_ne_none.mpr other)
        rw [String.toList_append, List.mem_append] at letter
        rcases letter with letter | letter
        · exact absurd (isFigure_of_mem_ratioText _ _ letter) (by decide)
        · exact plain letter
      simp only [relative, read, positive, if_true, written]
    · simp only [relative, read, positive, if_false]

/-- Turning a value into authored form twice is turning it once, for any property and any font
size, and in particular for every text that is looked through for colours. -/
theorem normalize_normalize (property value : String) (fontSize : Option Float) :
    normalize property (normalize property value fontSize) fontSize =
        normalize property value fontSize ∧
      hexColour (hexColour value) = hexColour value := by
  have colours (v : String) : hexColour (hexColour v) = hexColour v := by
    simp only [hexColour, String.toList_ofList, hexColours_hexColours]
  refine ⟨?_, colours value⟩
  rcases normalize_cases property fontSize with ⟨-, same⟩ | ⟨-, size, same⟩ | ⟨-, size, same⟩ | same
  · rw [same, same, colours]
  · rw [same, same, unitless_eq, unitless_eq]
    exact relative_relative value size "" (by decide)
  · rw [same, same]
    exact relative_relative value size "em" (by decide)
  · rw [same, same]

end AuthoredStyle.Value
