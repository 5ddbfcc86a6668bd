import AuthoredStyle.Cascade.Declared

/-!
# Parts of a value

A value is cut at its blanks outside parentheses. While it is read the parentheses that are open
are counted; one that is never closed keeps everything behind it in its part. So parts that are
joined with single spaces are cut again where they were joined, provided that each of them but
the last closes what it opens. Where one does not, there are fewer parts than before.
-/

namespace AuthoredStyle.Cascade

/-- How many parentheses are open behind a character. -/
def depthBehind (depth : Nat) (c : Char) : Nat :=
  if c = '(' then depth + 1 else if c = ')' then depth - 1 else depth

def depthAfter (depth : Nat) (s : List Char) : Nat := s.foldl depthBehind depth

/-- No blank stands outside parentheses. -/
def Whole (depth : Nat) : List Char → Prop
  | [] => True
  | c :: s => ¬ (depth = 0 ∧ Text.isBlank c = true) ∧ Whole (depthBehind depth c) s

variable {depth : Nat} {part w s : List Char} {ws : List (List Char)}

/-! ## Reading -/

theorem componentsFrom_nil :
    componentsFrom depth part [] = if part = [] then [] else [part.reverse] := by
  cases part <;> rfl

theorem componentsFrom_blank {c : Char} (blank : Text.isBlank c = true) :
    componentsFrom 0 part (c :: s) = componentsFrom 0 part [] ++ componentsFrom 0 [] s := by
  cases part <;> simp [componentsFrom, blank]

theorem componentsFrom_inside {c : Char} (inside : ¬ (depth = 0 ∧ Text.isBlank c = true)) :
    componentsFrom depth part (c :: s) = componentsFrom (depthBehind depth c) (c :: part) s := by
  rw [componentsFrom, if_neg (by simpa using inside)]
  rfl

theorem Whole.componentsFrom_append (whole : Whole depth w) (part s : List Char) :
    componentsFrom depth part (w ++ s) =
      componentsFrom (depthAfter depth w) (w.reverse ++ part) s := by
  induction w generalizing depth part with
  | nil => rfl
  | cons c w ih =>
    rw [List.cons_append, componentsFrom_inside whole.1, ih whole.2, List.reverse_cons,
      List.append_assoc]
    rfl

theorem depthBehind_mono {d e : Nat} (le : d ≤ e) (c : Char) :
    depthBehind d c ≤ depthBehind e c := by
  unfold depthBehind
  split
  · omega
  · split <;> omega

/-- More open parentheses keep more together. -/
theorem Whole.mono {d e : Nat} (whole : Whole d w) (le : d ≤ e) : Whole e w := by
  induction w generalizing d e with
  | nil => trivial
  | cons c w ih =>
    exact ⟨fun bare => whole.1 ⟨by omega, bare.2⟩, ih whole.2 (depthBehind_mono le c)⟩

/-! ## What is kept -/

/-- The text less its blanks outside parentheses. -/
def held (depth : Nat) : List Char → List Char
  | [] => []
  | c :: s =>
    if depth = 0 ∧ Text.isBlank c = true then held depth s else c :: held (depthBehind depth c) s

theorem flatten_componentsFrom (depth : Nat) (part s : List Char) :
    (componentsFrom depth part s).flatten = part.reverse ++ held depth s := by
  induction s generalizing depth part with
  | nil =>
    rw [componentsFrom_nil, held]
    split
    · next none => simp [none]
    · simp
  | cons c s ih =>
    rw [held]
    split
    · next bare =>
      obtain ⟨rfl, blank⟩ := bare
      rw [componentsFrom_blank blank, List.flatten_append, ih, componentsFrom_nil]
      split
      · next none => simp [none]
      · simp
    · next inside =>
      rw [componentsFrom_inside inside, ih]
      simp

theorem length_held_le : (held depth s).length ≤ s.length := by
  induction s generalizing depth with
  | nil => exact Nat.le_refl 0
  | cons c s ih =>
    rw [held]
    split
    · exact Nat.le_succ_of_le ih
    · exact Nat.succ_le_succ ih

theorem whole_of_held (all : held depth s = s) : Whole depth s := by
  induction s generalizing depth with
  | nil => trivial
  | cons c s ih =>
    rw [held] at all
    split at all
    · have shorter : (held depth s).length ≤ s.length := length_held_le
      rw [all, List.length_cons] at shorter
      omega
    · next inside => exact ⟨inside, ih (List.cons.inj all).2⟩

/-- A text is a part of its own just if there is something of it, and no blank to cut it at. -/
theorem componentsFrom_eq_singleton_iff : componentsFrom 0 [] w = [w] ↔ w ≠ [] ∧ Whole 0 w := by
  constructor
  · intro single
    constructor
    · rintro rfl
      cases single
    · apply whole_of_held
      have kept := flatten_componentsFrom 0 [] w
      rw [single] at kept
      simpa using kept.symm
  · rintro ⟨some, whole⟩
    have read := whole.componentsFrom_append [] []
    rw [List.append_nil, List.append_nil, componentsFrom_nil, if_neg (by simpa using some)] at read
    rw [read, List.reverse_reverse]

/-! ## Parts that are joined -/

section Joined

/-- Every text is a part of its own. -/
def AllWhole (ws : List (List Char)) : Prop := ∀ w ∈ ws, w ≠ [] ∧ Whole 0 w

theorem componentsFrom_closed {c : Char} (some : w ≠ []) (whole : Whole 0 w)
    (closed : depthAfter 0 w = 0) (blank : Text.isBlank c = true) :
    componentsFrom 0 [] (w ++ c :: s) = w :: componentsFrom 0 [] s := by
  rw [whole.componentsFrom_append, closed, componentsFrom_blank blank, componentsFrom_nil,
    List.append_nil, if_neg (by simpa using some), List.reverse_reverse, List.singleton_append]

theorem componentsFrom_unclosed (whole : Whole depth w) (unclosed : depthAfter depth w ≠ 0) :
    componentsFrom depth part (w ++ ' ' :: s) =
      componentsFrom (depthAfter depth w) (' ' :: (w.reverse ++ part)) s := by
  rw [whole.componentsFrom_append, componentsFrom_inside fun bare => unclosed bare.1]
  rfl

theorem intercalate_cons_cons (w v : List Char) (ws : List (List Char)) :
    [' '].intercalate (w :: v :: ws) = w ++ ' ' :: [' '].intercalate (v :: ws) := by
  rw [List.intercalate_cons_cons, List.append_assoc, List.singleton_append]

/-- However many parentheses are open before, joined parts give no further parts. -/
theorem length_componentsFrom_le (depth : Nat) (part : List Char) (all : AllWhole ws)
    (some : ws ≠ []) :
    (componentsFrom depth part ([' '].intercalate ws)).length ≤ ws.length := by
  induction ws generalizing depth part with
  | nil => exact absurd rfl some
  | cons w ws ih =>
    obtain ⟨⟨visible, whole⟩, others⟩ := List.forall_mem_cons.mp all
    have whole : Whole depth w := whole.mono (Nat.zero_le depth)
    cases ws with
    | nil =>
      have read := whole.componentsFrom_append part []
      rw [List.append_nil] at read
      rw [List.intercalate_singleton, read, componentsFrom_nil]
      split <;> simp
    | cons v ws =>
      rw [intercalate_cons_cons]
      by_cases closed : depthAfter depth w = 0
      · have onward := ih 0 [] others (List.cons_ne_nil v ws)
        rw [whole.componentsFrom_append, closed, componentsFrom_blank rfl, componentsFrom_nil,
          if_neg (by simp [visible])]
        simpa using onward
      · rw [componentsFrom_unclosed whole closed]
        exact Nat.le_succ_of_le (ih _ _ others (List.cons_ne_nil v ws))

/-- Joined parts are cut again where they were joined. -/
theorem componentsFrom_intercalate (all : AllWhole ws)
    (closed : ∀ w ∈ ws.dropLast, depthAfter 0 w = 0) :
    componentsFrom 0 [] ([' '].intercalate ws) = ws := by
  induction ws with
  | nil => rfl
  | cons w ws ih =>
    obtain ⟨⟨visible, whole⟩, others⟩ := List.forall_mem_cons.mp all
    cases ws with
    | nil =>
      rw [List.intercalate_singleton]
      exact componentsFrom_eq_singleton_iff.mpr ⟨visible, whole⟩
    | cons v ws =>
      rw [List.dropLast_cons_cons, List.forall_mem_cons] at closed
      rw [intercalate_cons_cons, componentsFrom_closed visible whole closed.1 rfl,
        ih others closed.2]

theorem closed_of_length_le (all : AllWhole ws)
    (many : ws.length ≤ (componentsFrom 0 [] ([' '].intercalate ws)).length) :
    ∀ w ∈ ws.dropLast, depthAfter 0 w = 0 := by
  induction ws with
  | nil => exact fun w hw => absurd hw List.not_mem_nil
  | cons w ws ih =>
    obtain ⟨⟨visible, whole⟩, others⟩ := List.forall_mem_cons.mp all
    cases ws with
    | nil => exact fun w hw => absurd hw List.not_mem_nil
    | cons v ws =>
      rw [intercalate_cons_cons] at many
      rw [List.dropLast_cons_cons, List.forall_mem_cons]
      by_cases closed : depthAfter 0 w = 0
      · rw [componentsFrom_closed visible whole closed rfl] at many
        exact ⟨closed, ih others (Nat.le_of_succ_le_succ many)⟩
      · -- what follows is read into the part that is not closed
        rw [componentsFrom_unclosed whole closed] at many
        have fewer := Nat.le_trans many
          (length_componentsFrom_le _ _ others (List.cons_ne_nil v ws))
        exact absurd fewer (Nat.not_succ_le_self _)

end Joined

/-! ## Values -/

section Values

variable {w : String} {ws : List String}

/-- A value closes the parentheses that it opens. -/
def Closed (w : String) : Prop := depthAfter 0 w.toList = 0

instance : DecidablePred Closed := fun _ => inferInstanceAs (Decidable (_ = _))

theorem components_eq_singleton_iff :
    components w = [w] ↔ w.toList ≠ [] ∧ Whole 0 w.toList := by
  rw [← componentsFrom_eq_singleton_iff, components]
  constructor
  · intro single
    obtain ⟨part, parts, read, rfl, rest⟩ := List.map_eq_cons_iff.mp single
    rw [read, List.map_eq_nil_iff.mp rest, String.toList_ofList]
  · intro single
    rw [single, List.map_singleton, String.ofList_toList]

theorem components_intercalate_eq (ws : List String) :
    components (" ".intercalate ws) =
      (componentsFrom 0 [] ([' '].intercalate (ws.map String.toList))).map String.ofList := by
  rw [components, String.toList_intercalate]
  rfl

/-- Joined parts are the parts again exactly if each but the last closes what it opens, and
otherwise there are fewer. -/
theorem components_intercalate (all : ∀ w ∈ ws, components w = [w]) :
    (∀ w ∈ ws.dropLast, Closed w) ∧ components (" ".intercalate ws) = ws ∨
      ¬ (∀ w ∈ ws.dropLast, Closed w) ∧ (components (" ".intercalate ws)).length < ws.length := by
  have whole : AllWhole (ws.map String.toList) := by
    rw [AllWhole, List.forall_mem_map]
    exact fun w hw => components_eq_singleton_iff.mp (all w hw)
  have same : (∀ w ∈ ws.dropLast, Closed w) ↔
      ∀ w ∈ (ws.map String.toList).dropLast, depthAfter 0 w = 0 := by
    rw [← List.map_dropLast, List.forall_mem_map]
    rfl
  by_cases closed : ∀ w ∈ ws.dropLast, Closed w
  · refine .inl ⟨closed, ?_⟩
    rw [components_intercalate_eq, componentsFrom_intercalate whole (same.mp closed), List.map_map]
    simp [Function.comp_def]
  · refine .inr ⟨closed, Nat.lt_of_not_le fun many => closed (same.mpr ?_)⟩
    apply closed_of_length_le whole
    rwa [components_intercalate_eq, List.length_map, ← List.length_map String.toList] at many

end Values

end AuthoredStyle.Cascade
