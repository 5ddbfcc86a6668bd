import AuthoredStyle.Proofs.Text.Trim
import AuthoredStyle.Proofs.Value.Colour
import AuthoredStyle.Value.Normal

/-!
# Colours in texts that are put together

A colour call starts at its name and goes up to the first closing parenthesis, and what it gives
way to depends on nothing else. So of two texts that are put together each is rewritten by itself,
as long as no name of a call stretches from one into the other and the first one closes what it
opens. A list with commas between its items is such a text, whatever its items hold: calls in
calls, calls that are no colours, and parentheses that close nothing.
-/

namespace AuthoredStyle.Value

open Text (lower)

/-! ## Calls -/

/-- The name of a colour call with its parenthesis, in any case. -/
def IsHead (s : List Char) : Prop :=
  lower s = ['r', 'g', 'b', '('] ∨ lower s = ['r', 'g', 'b', 'a', '(']

variable {s t head tail : List Char}

theorem IsHead.exists_cons (h : IsHead head) :
    ∃ c rest, head = c :: rest ∧ c.toLower = 'r' ∧
      ∀ d ∈ rest, d.toLower ∈ ['g', 'b', 'a', '('] := by
  have letters : ∃ name ∈ [['g', 'b', '('], ['g', 'b', 'a', '(']], lower head = 'r' :: name := by
    rcases h with h | h
    · exact ⟨_, by simp, h⟩
    · exact ⟨_, by simp, h⟩
  obtain ⟨name, listed, h⟩ := letters
  obtain ⟨c, rest, rfl, first, others⟩ := List.map_eq_cons_iff.mp h
  refine ⟨c, rest, rfl, first, fun d hd => ?_⟩
  have inName : d.toLower ∈ name := others ▸ List.mem_map_of_mem hd
  exact (by simp : ∀ name ∈ [['g', 'b', '('], ['g', 'b', 'a', '(']], ∀ x ∈ name,
    x ∈ ['g', 'b', 'a', '(']) name listed _ inName

theorem IsHead.opens (h : IsHead head) : ∃ name, head = name ++ ['('] := by
  have ends : (lower head).getLast? = some '(' := by rcases h with h | h <;> rw [h] <;> rfl
  rw [lower, List.getLast?_map, Option.map_eq_some_iff] at ends
  obtain ⟨p, last, same⟩ := ends
  obtain ⟨name, rfl⟩ := List.getLast?_eq_some_iff.mp last
  exact ⟨name, by rw [(Text.toLower_eq_iff (by decide)).mp same]⟩

theorem callHead?_eq_some_iff :
    callHead? s = some (head, tail) ↔ s = head ++ tail ∧ IsHead head := by
  constructor
  · intro found
    refine ⟨eq_of_callHead? found, ?_⟩
    unfold callHead? at found
    split at found
    · split at found
      · next named =>
        cases found
        exact .inl (by simpa [lower] using named)
      · cases found
    · split at found
      · next named =>
        cases found
        exact .inr (by simpa [lower] using named)
      · cases found
    · cases found
  · rintro ⟨rfl, letters | letters⟩
    · simp only [lower, List.map_eq_cons_iff, List.map_eq_nil_iff] at letters
      obtain ⟨r, _, rfl, hr, g, _, rfl, hg, b, _, rfl, hb, p, _, rfl, hp, rfl⟩ := letters
      obtain rfl := (Text.toLower_eq_iff (by decide)).mp hp
      simp [callHead?, lower, hr, hg, hb]
    · simp only [lower, List.map_eq_cons_iff, List.map_eq_nil_iff] at letters
      obtain ⟨r, _, rfl, hr, g, _, rfl, hg, b, _, rfl, hb, a, _, rfl, ha, p, _, rfl, hp, rfl⟩ :=
        letters
      obtain rfl := (Text.toLower_eq_iff (by decide)).mp hp
      have other : a ≠ '(' := by
        rintro rfl
        exact absurd ha (by decide)
      simp [callHead?, lower, hr, hg, hb, ha]

theorem IsHead.letters (h : IsHead head) : ∀ d ∈ head, d.toLower ∈ ['r', 'g', 'b', 'a', '('] := by
  obtain ⟨c, rest, rfl, first, others⟩ := h.exists_cons
  refine List.forall_mem_cons.mpr ⟨by simp [first], fun d hd => ?_⟩
  exact List.mem_cons_of_mem 'r' (others d hd)

theorem call?_eq_some_iff {arguments rest : List Char} :
    call? s = some (head, arguments, rest) ↔
      s = head ++ (arguments ++ ')' :: rest) ∧ IsHead head ∧ ')' ∉ arguments := by
  constructor
  · intro found
    obtain ⟨⟨h, tail⟩, headed, found⟩ := Option.bind_eq_some_iff.mp found
    obtain ⟨⟨a, r⟩, closed, found⟩ := Option.bind_eq_some_iff.mp found
    cases found
    obtain ⟨rfl, named⟩ := callHead?_eq_some_iff.mp headed
    obtain ⟨rfl, first⟩ := Text.cut?_singleton_eq_some_iff.mp closed
    exact ⟨rfl, named, first⟩
  · rintro ⟨rfl, named, first⟩
    have headed : callHead? (head ++ (arguments ++ ')' :: rest)) = _ :=
      callHead?_eq_some_iff.mpr ⟨rfl, named⟩
    rw [call?, headed]
    simp [Text.cut?_first rest first]

theorem exists_call? (named : IsHead head) (closed : ')' ∈ tail) :
    ∃ arguments rest, call? (head ++ tail) = some (head, arguments, rest) := by
  obtain ⟨arguments, rest, rfl, first⟩ := List.eq_append_cons_of_mem closed
  exact ⟨arguments, rest, call?_eq_some_iff.mpr ⟨rfl, named, first⟩⟩

/-! ## Rewriting step by step -/

theorem hexColours_of_call {arguments rest : List Char}
    (found : call? s = some (head, arguments, rest)) :
    hexColours s = (opaqueHex? arguments).getD (head ++ arguments ++ [')']) ++ hexColours rest := by
  cases s with
  | nil => cases found
  | cons c s =>
    rw [hexColours]
    split
    · next again =>
      cases found.symm.trans again
      rfl
    · next none => cases found.symm.trans none

theorem hexColours_of_none {c : Char} (none : call? (c :: s) = none) :
    hexColours (c :: s) = c :: hexColours s := by
  rw [hexColours]
  split
  · next again => cases none.symm.trans again
  · rfl

/-- Without a closing parenthesis no call ends. -/
theorem hexColours_eq_self (unclosed : ')' ∉ s) : hexColours s = s := by
  induction s with
  | nil => simp [hexColours]
  | cons c s ih =>
    rw [hexColours_of_none, ih (List.not_mem_of_not_mem_cons unclosed)]
    rw [Option.eq_none_iff_forall_ne_some]
    rintro ⟨head, arguments, rest⟩ found
    rw [(call?_eq_some_iff.mp found).1] at unclosed
    simp at unclosed

/-! ## Two texts -/

/-- Every opening parenthesis has a closing one somewhere behind it. -/
def ClosesOpened (s : List Char) : Prop := ∀ before after, s = before ++ '(' :: after → ')' ∈ after

theorem ClosesOpened.of_suffix (closed : ClosesOpened s) (h : t <:+ s) : ClosesOpened t := by
  rintro before after rfl
  obtain ⟨front, rfl⟩ := h
  exact closed (front ++ before) after (by simp)

theorem closesOpened_cons_iff {c : Char} :
    ClosesOpened (c :: s) ↔ (c = '(' → ')' ∈ s) ∧ ClosesOpened s := by
  constructor
  · intro closed
    refine ⟨?_, closed.of_suffix (List.suffix_cons c s)⟩
    rintro rfl
    exact closed [] s rfl
  · rintro ⟨first, closed⟩ before after split
    cases before with
    | nil =>
      obtain ⟨rfl, rfl⟩ := List.cons.inj split
      exact first rfl
    | cons d before =>
      obtain ⟨-, rfl⟩ := List.cons.inj split
      exact closed before after rfl

instance decidableClosesOpened : DecidablePred ClosesOpened
  | [] => .isTrue fun before after split => absurd split.symm (by simp)
  | c :: s =>
    have := decidableClosesOpened s
    decidable_of_iff _ closesOpened_cons_iff.symm

/-- No name of a call stretches from the first text into the second. -/
def Parted (s t : List Char) : Prop :=
  ∀ u v, IsHead (u ++ v) → u <:+ s → v <+: t → u = [] ∨ v = []

theorem Parted.of_suffix {s' : List Char} (parted : Parted s t) (h : s' <:+ s) : Parted s' t :=
  fun u v named hu => parted u v named (hu.trans h)

theorem parted_of_first {c : Char} (other : c.toLower ∉ ['r', 'g', 'b', 'a', '(']) :
    Parted s (c :: t) := by
  intro u v named _ hv
  rcases List.prefix_cons_iff.mp hv with none | ⟨back, rfl, -⟩
  · exact .inr none
  · exact absurd (named.letters c (by simp)) other

theorem call?_append {arguments rest : List Char} (t : List Char)
    (found : call? s = some (head, arguments, rest)) :
    call? (s ++ t) = some (head, arguments, rest ++ t) := by
  obtain ⟨rfl, named, first⟩ := call?_eq_some_iff.mp found
  exact call?_eq_some_iff.mpr ⟨by simp, named, first⟩

theorem call?_append_eq_none (some : s ≠ []) (closed : ClosesOpened s) (parted : Parted s t)
    (none : call? s = .none) : call? (s ++ t) = .none := by
  rw [Option.eq_none_iff_forall_ne_some]
  rintro ⟨head, arguments, rest⟩ found
  obtain ⟨split, named, -⟩ := call?_eq_some_iff.mp found
  obtain ⟨name, rfl⟩ := named.opens
  rcases List.append_eq_append_iff.mp split with ⟨z, within, behind⟩ | ⟨z, within, -⟩
  · rw [within] at named
    rcases parted s z named List.suffix_rfl ⟨_, behind.symm⟩ with nothing | nothing
    · exact some nothing
    · rw [nothing, List.append_nil] at within
      exact absurd (closed name [] within.symm) List.not_mem_nil
  · have inside : ')' ∈ z := closed name z (by rw [within]; simp)
    obtain ⟨arguments, rest, again⟩ := exists_call? named inside
    rw [within] at none
    exact absurd (none.symm.trans again) (by simp)

/-- Two texts are rewritten each by itself. -/
theorem hexColours_append (closed : ClosesOpened s) (parted : Parted s t) :
    hexColours (s ++ t) = hexColours s ++ hexColours t := by
  fun_induction hexColours s with
  | case1 => rfl
  | case2 c s head arguments rest found ih =>
    have behind : rest <:+ c :: s := by
      rw [eq_of_call? found]
      exact ⟨head ++ arguments ++ [')'], by simp⟩
    rw [hexColours_of_call (call?_append t found),
      ih (closed.of_suffix behind) (parted.of_suffix behind), ← List.append_assoc]
  | case3 c s none ih =>
    have behind : s <:+ c :: s := List.suffix_cons c s
    have still : call? (c :: (s ++ t)) = .none :=
      call?_append_eq_none (List.cons_ne_nil c s) closed parted none
    rw [List.cons_append, hexColours_of_none still,
      ih (closed.of_suffix behind) (parted.of_suffix behind), List.cons_append]

/-! ## Lists -/

theorem call?_eq_none {c : Char} (other : c.toLower ≠ 'r') : call? (c :: s) = none := by
  rw [Option.eq_none_iff_forall_ne_some]
  rintro ⟨head, arguments, rest⟩ found
  obtain ⟨split, named, -⟩ := call?_eq_some_iff.mp found
  obtain ⟨d, name, rfl, first, -⟩ := named.exists_cons
  obtain ⟨rfl, -⟩ := List.cons.inj split
  exact other first

/-- The items of a list that is written with commas are rewritten each by itself. -/
theorem hexColours_intercalate {vs : List (List Char)} (closed : ∀ v ∈ vs, ClosesOpened v) :
    hexColours ([',', ' '].intercalate vs) = [',', ' '].intercalate (vs.map hexColours) := by
  induction vs with
  | nil => simp [hexColours]
  | cons v vs ih =>
    have items := ih fun w hw => closed w (List.mem_cons_of_mem v hw)
    cases vs with
    | nil => simp
    | cons w vs =>
      have onward : hexColours (',' :: ' ' :: [',', ' '].intercalate (w :: vs)) =
          ',' :: ' ' :: [',', ' '].intercalate ((w :: vs).map hexColours) := by
        rw [hexColours_of_none (call?_eq_none (by decide)),
          hexColours_of_none (call?_eq_none (by decide)), items]
      calc hexColours ([',', ' '].intercalate (v :: w :: vs))
          = hexColours (v ++ ',' :: ' ' :: [',', ' '].intercalate (w :: vs)) := by
            rw [List.intercalate_cons_cons, List.append_assoc]
            rfl
        _ = hexColours v ++ ',' :: ' ' :: [',', ' '].intercalate ((w :: vs).map hexColours) := by
            rw [hexColours_append (closed v List.mem_cons_self) (parted_of_first (by decide)),
              onward]
        _ = [',', ' '].intercalate ((v :: w :: vs).map hexColours) := by
            simp [List.intercalate_cons_cons]

/-- Every colour of a value that lists several is rewritten as if it stood alone. -/
theorem hexColour_intercalate (vs : List String) (closed : ∀ v ∈ vs, ClosesOpened v.toList) :
    hexColour (", ".intercalate vs) = ", ".intercalate (vs.map hexColour) := by
  have lists : ∀ v ∈ vs.map String.toList, ClosesOpened v := List.forall_mem_map.mpr closed
  have comma : ", ".toList = [',', ' '] := rfl
  rw [← String.toList_inj, hexColour, String.toList_ofList, String.toList_intercalate,
    String.toList_intercalate, comma, hexColours_intercalate lists, List.map_map, List.map_map]
  simp only [Function.comp_def, hexColour, String.toList_ofList]

/-- An opaque colour in a gradient, a call within a call, and a translucent colour. -/
def layers : List String :=
  ["linear-gradient(rgb(255, 0, 0), RGBA(0 0 0 / 100%))", "rgb(rgb(1, 2, 3) 4px",
    "rgba(0, 0, 0, 0.2)"]

theorem hexColour_intercalate_of_layers :
    (∀ v ∈ layers, ClosesOpened v.toList) ∧
      hexColour (", ".intercalate layers) = ", ".intercalate (layers.map hexColour) :=
  have closed : ∀ v ∈ layers, ClosesOpened v.toList := by decide
  ⟨closed, hexColour_intercalate layers closed⟩

end AuthoredStyle.Value
