import Mathlib.Data.List.Basic
import AuthoredStyle.Cascade.Computed
import AuthoredStyle.Proofs.Cascade.Parts

/-!
# Shorthands of sides and axes

A box is composed from four sides and an axis pair from two values, in the shortest form that
says the same, and a declared shorthand is expanded into just these longhands. The two tables
are inverse. What stands between them is a text with spaces, so the longhands come back exactly
if every part that is written in front of another one closes the parentheses that it opens. No
shorter value would have done.
-/

namespace AuthoredStyle.Cascade

/-- The parts that the shortest form has. -/
def written : List String → List String
  | [t, r, b, l] =>
    if l ≠ r then [t, r, b, l] else if t ≠ b then [t, r, b] else if t ≠ r then [t, r] else [t]
  | [a, b] => if a = b then [a] else [a, b]
  | parts => parts

theorem compose_eq (parts : List String) : compose parts = " ".intercalate (written parts) := by
  fun_cases written parts with
  | case1 t r b l other => rw [compose, if_pos other]
  | case2 t r b l same other => rw [compose, if_neg same, if_pos other]
  | case3 t r b l same same' other => rw [compose, if_neg same, if_neg same', if_pos other]
  | case4 t r b l same same' same'' =>
    rw [compose, if_neg same, if_neg same', if_neg same'', String.intercalate_singleton]
  | case5 a => rw [compose, if_pos rfl, String.intercalate_singleton]
  | case6 a b other => rw [compose, if_neg other]
  | case7 parts noBox noPair => rw [compose] <;> assumption

/-- What the longhands of a shorthand get from the parts of its value. -/
def spread : (count : Nat) → List String → Option (List String)
  | 4, [a] => some [a, a, a, a]
  | 4, [a, b] => some [a, b, a, b]
  | 4, [a, b, c] => some [a, b, c, b]
  | 4, [a, b, c, d] => some [a, b, c, d]
  | 2, [a] => some [a, a]
  | 2, [a, b] => some [a, b]
  | _, _ => none

/-! ## Two tables -/

section Tables

variable {parts cs : List String} {n : Nat}

theorem spread_written (sides : parts.length = 4 ∨ parts.length = 2) :
    spread parts.length (written parts) = some parts := by
  fun_cases written parts with
  | case1 t r b l other => rfl
  | case2 t r b l same other =>
    obtain rfl := Decidable.not_not.mp same
    rfl
  | case3 t r b l same same' other =>
    obtain rfl := Decidable.not_not.mp same
    obtain rfl := Decidable.not_not.mp same'
    rfl
  | case4 t r b l same same' same'' =>
    obtain rfl := Decidable.not_not.mp same
    obtain rfl := Decidable.not_not.mp same'
    obtain rfl := Decidable.not_not.mp same''
    rfl
  | case5 a => rfl
  | case6 a b other => rfl
  | case7 parts noBox noPair =>
    rcases sides with four | two
    · obtain ⟨t, r, b, l, rfl⟩ := List.length_eq_four.mp four
      exact (noBox t r b l rfl).elim
    · obtain ⟨a, b, rfl⟩ := List.length_eq_two.mp two
      exact (noPair a b rfl).elim

theorem length_written_le (parts : List String) : (written parts).length ≤ parts.length := by
  fun_cases written parts <;> simp

theorem written_subset (parts : List String) : written parts ⊆ parts := by
  fun_cases written parts <;> simp

theorem length_of_spread (same : spread n cs = some parts) : parts.length = n := by
  fun_cases spread n cs with
  | case7 n cs =>
    rw [spread] at same
    · cases same
    all_goals assumption
  | _ =>
    cases same
    rfl

/-- No fewer parts say the same. -/
theorem length_written_le_of_spread (same : spread n cs = some parts) :
    (written parts).length ≤ cs.length := by
  fun_cases spread n cs with
  | case1 a =>
    cases same
    simp [written]
  | case2 a b =>
    cases same
    simp only [written, ne_eq, not_true_eq_false, if_false]
    split <;> simp
  | case3 a b c =>
    cases same
    simp only [written, ne_eq, not_true_eq_false, if_false]
    split
    · simp
    · split <;> simp
  | case4 a b c d =>
    cases same
    exact length_written_le [a, b, c, d]
  | case5 a =>
    cases same
    simp [written]
  | case6 a b =>
    cases same
    exact length_written_le [a, b]
  | case7 n cs =>
    rw [spread] at same
    · cases same
    all_goals assumption

end Tables

/-! ## Shorthands -/

section Shorthands

variable {shorthand value : String} {parts : List String}

theorem expand_box (box : shorthand = "margin" ∨ shorthand = "padding") (value : String) :
    expand shorthand value =
      match spread 4 (components value) with
      | some parts => [shorthand ++ "-top", shorthand ++ "-right", shorthand ++ "-bottom",
          shorthand ++ "-left"].zip parts
      | none => [(shorthand, value)] := by
  rcases box with rfl | rfl
  all_goals
    simp only [expand]
    generalize components value = cs
    split
    · rfl
    · rfl
    · rfl
    · rfl
    · rw [spread] <;> simp_all

theorem expand_pair (shorthand value first second : String) :
    expand.pair shorthand value first second =
      match spread 2 (components value) with
      | some parts => [first, second].zip parts
      | none => [(shorthand, value)] := by
  rw [expand.pair]
  generalize components value = cs
  split
  · rfl
  · rfl
  · rw [spread] <;> simp_all

theorem expand_eq (short : shorthand ∈ composed) (value : String) :
    expand shorthand value =
      match spread (Property.longhands shorthand).length (components value) with
      | some parts => (Property.longhands shorthand).zip parts
      | none => [(shorthand, value)] := by
  simp only [composed, List.mem_cons, List.not_mem_nil, or_false] at short
  rcases short with rfl | rfl | rfl | rfl
  · exact expand_box (.inl rfl) value
  · exact expand_box (.inr rfl) value
  · exact expand_pair "gap" value "row-gap" "column-gap"
  · exact expand_pair "overflow" value "overflow-x" "overflow-y"

theorem longhands_of_composed (short : shorthand ∈ composed) :
    (Property.longhands shorthand).length = 4 ∨ (Property.longhands shorthand).length = 2 :=
  (by decide : ∀ s ∈ composed,
    (Property.longhands s).length = 4 ∨ (Property.longhands s).length = 2) shorthand short

/-- The longhands get just these parts. -/
theorem expand_eq_zip_iff (short : shorthand ∈ composed)
    (each : parts.length = (Property.longhands shorthand).length) (value : String) :
    expand shorthand value = (Property.longhands shorthand).zip parts ↔
      spread parts.length (components value) = some parts := by
  rw [expand_eq short, each]
  cases spreads : spread (Property.longhands shorthand).length (components value) with
  | some cs =>
    constructor
    · intro same
      have parts := congrArg (List.map Prod.snd) same
      rw [List.map_snd_zip (Nat.le_of_eq (length_of_spread spreads)),
        List.map_snd_zip (Nat.le_of_eq each)] at parts
      rw [parts]
    · intro same
      rw [Option.some.inj same]
  | none =>
    refine iff_of_false (fun same => ?_) (by simp)
    have one := congrArg List.length same
    rw [List.length_zip, each, Nat.min_self] at one
    rcases longhands_of_composed short with count | count <;> simp [count] at one

/-- A shorthand that is composed from parts expands into them again exactly if every part that
is written in front of another one closes what it opens, and no value with fewer parts expands
into them. -/
theorem expand_compose_iff (parts : List String) (short : shorthand ∈ composed)
    (each : parts.length = (Property.longhands shorthand).length)
    (single : ∀ w ∈ parts, components w = [w]) :
    compose parts = " ".intercalate (written parts) ∧
      (expand shorthand (compose parts) = (Property.longhands shorthand).zip parts ↔
        ∀ w ∈ (written parts).dropLast, Closed w) ∧
      ∀ value, expand shorthand value = (Property.longhands shorthand).zip parts →
        (written parts).length ≤ (components value).length := by
  have shortest (value : String)
      (same : expand shorthand value = (Property.longhands shorthand).zip parts) :
      (written parts).length ≤ (components value).length :=
    length_written_le_of_spread ((expand_eq_zip_iff short each value).mp same)
  refine ⟨compose_eq parts, ?_, shortest⟩
  have whole : ∀ w ∈ written parts, components w = [w] := fun w hw =>
    single w (written_subset parts hw)
  rcases components_intercalate whole with ⟨closed, read⟩ | ⟨unclosed, fewer⟩
  · refine iff_of_true ?_ closed
    rw [expand_eq_zip_iff short each, compose_eq, read]
    exact spread_written (each ▸ longhands_of_composed short)
  · refine iff_of_false (fun same => ?_) unclosed
    rw [← compose_eq] at fewer
    exact absurd (shortest _ same) (Nat.not_le_of_lt fewer)

/-- A margin with a calculated side on top. -/
def calculated : List String := ["calc(1px + (2em - 3px))", "0px", "4px", "0px"]

theorem expand_compose_iff_of_calculated :
    "margin" ∈ composed ∧ calculated.length = (Property.longhands "margin").length ∧
      (∀ w ∈ calculated, components w = [w]) ∧
      compose calculated = "calc(1px + (2em - 3px)) 0px 4px" ∧
      expand "margin" (compose calculated) = (Property.longhands "margin").zip calculated ∧
      ∀ value, expand "margin" value = (Property.longhands "margin").zip calculated →
        3 ≤ (components value).length :=
  have short : "margin" ∈ composed := by decide
  have single : ∀ w ∈ calculated, components w = [w] := by decide
  have ⟨same, comesBack, shortest⟩ := expand_compose_iff calculated short rfl single
  ⟨short, rfl, single, same.trans rfl, comesBack.mpr (by decide), shortest⟩

/-- What is not closed takes up what is written behind it. -/
theorem unclosed_side_takes_next :
    ¬ ∀ shorthand ∈ composed, ∀ parts : List String,
      parts.length = (Property.longhands shorthand).length →
        (∀ w ∈ parts, components w = [w]) →
          expand shorthand (compose parts) = (Property.longhands shorthand).zip parts := by
  intro claim
  have same := claim "margin" (by decide) ["calc(1px", "2px", "calc(1px", "2px"] rfl (by decide)
  exact absurd same (by decide)

end Shorthands

end AuthoredStyle.Cascade
