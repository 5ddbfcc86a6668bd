import AuthoredStyle.Sheet.Piece

/-!
# Texts a scan passes over

A text is passed over when scanning it alone cuts nothing: quotes and
parentheses end where they begin, and no brace or semicolon counts. Wherever such
a text stands, a scan only adds it to the current segment, so statements and
blocks can be scanned part by part.
-/

namespace AuthoredStyle.Sheet

namespace Scan

/-- Outside quotes and parentheses. -/
def Idle (s : Scan) : Prop := s.parens = 0 ∧ s.reading = .bare

/-- Nothing has been cut so far. -/
def Uncut (s : Scan) : Prop := s.frames = [] ∧ s.done = []

/-- Taking a character into the segment depends on parentheses and quotes only. -/
def Keeps (s : Scan) (c : Char) (parens : Nat) (reading : Reading) : Prop :=
  ∀ t : Scan, t.parens = s.parens → t.reading = s.reading →
    t.step c = { t.keep c with parens := parens, reading := reading }

theorem step_escaped {s : Scan} {mark : Char} (c : Char) (h : s.reading = .escaped mark) :
    s.step c = { s.keep c with reading := .quoted mark } := by
  unfold step
  rw [h]

theorem step_quoted {s : Scan} {mark : Char} (c : Char) (h : s.reading = .quoted mark) :
    s.step c =
      if c = '\\' then { s.keep c with reading := .escaped mark }
      else if c = mark then { s.keep c with reading := .bare }
      else s.keep c := by
  unfold step
  rw [h]

theorem step_bare {s : Scan} (c : Char) (h : s.reading = .bare) :
    s.step c =
      if c = '"' ∨ c = '\'' then { s.keep c with reading := .quoted c }
      else if c = '(' then { s.keep c with parens := s.parens + 1 }
      else if c = ')' then { s.keep c with parens := s.parens - 1 }
      else if c = ';' ∧ s.parens = 0 then s.endStatement
      else if c = '{' then s.openBlock
      else if c = '}' then s.closeBlock
      else s.keep c := by
  unfold step
  rw [h]
  dsimp only
  split <;> simp_all

/-- A character is kept, or it ends a statement, opens a block or closes one. -/
theorem step_cases (s : Scan) (c : Char) :
    (∃ parens reading, s.Keeps c parens reading) ∨
      (c = ';' ∧ s.Idle ∧ s.step c = s.endStatement) ∨
      (c = '{' ∧ s.reading = .bare ∧ s.step c = s.openBlock) ∨
      c = '}' ∧ s.reading = .bare ∧ s.step c = s.closeBlock := by
  cases now : s.reading with
  | escaped mark =>
    refine .inl ⟨s.parens, .quoted mark, fun t parens reading => ?_⟩
    rw [step_escaped c (reading.trans now), ← parens]
    rfl
  | quoted mark =>
    by_cases slash : c = '\\'
    · refine .inl ⟨s.parens, .escaped mark, fun t parens reading => ?_⟩
      rw [step_quoted c (reading.trans now), if_pos slash, ← parens]
      rfl
    · by_cases ends : c = mark
      · refine .inl ⟨s.parens, .bare, fun t parens reading => ?_⟩
        rw [step_quoted c (reading.trans now), if_neg slash, if_pos ends, ← parens]
        rfl
      · refine .inl ⟨s.parens, .quoted mark, fun t parens reading => ?_⟩
        rw [step_quoted c (reading.trans now), if_neg slash, if_neg ends, ← parens, ← now, ← reading]
        rfl
  | bare =>
    by_cases quote : c = '"' ∨ c = '\''
    · refine .inl ⟨s.parens, .quoted c, fun t parens reading => ?_⟩
      rw [step_bare c (reading.trans now), if_pos quote, ← parens]
      rfl
    by_cases opens : c = '('
    · refine .inl ⟨s.parens + 1, .bare, fun t parens reading => ?_⟩
      rw [step_bare c (reading.trans now), if_neg quote, if_pos opens, ← parens, ← now, ← reading]
      rfl
    by_cases closes : c = ')'
    · refine .inl ⟨s.parens - 1, .bare, fun t parens reading => ?_⟩
      rw [step_bare c (reading.trans now), if_neg quote, if_neg opens, if_pos closes, ← parens,
        ← now, ← reading]
      rfl
    by_cases ends : c = ';' ∧ s.parens = 0
    · refine .inr (.inl ⟨ends.1, ⟨ends.2, now⟩, ?_⟩)
      rw [step_bare c now, if_neg quote, if_neg opens, if_neg closes, if_pos ends]
    by_cases brace : c = '{'
    · refine .inr (.inr (.inl ⟨brace, rfl, ?_⟩))
      rw [step_bare c now, if_neg quote, if_neg opens, if_neg closes, if_neg ends, if_pos brace]
    by_cases unbrace : c = '}'
    · refine .inr (.inr (.inr ⟨unbrace, rfl, ?_⟩))
      rw [step_bare c now, if_neg quote, if_neg opens, if_neg closes, if_neg ends, if_neg brace,
        if_pos unbrace]
    · refine .inl ⟨s.parens, .bare, fun t parens reading => ?_⟩
      rw [← parens] at ends
      rw [step_bare c (reading.trans now), if_neg quote, if_neg opens, if_neg closes, if_neg ends,
        if_neg brace, if_neg unbrace, ← parens, ← now, ← reading]
      rfl

end Scan

/-- The reading behind one more character. -/
def Reading.next (r : Reading) (c : Char) : Reading := (Scan.step { reading := r } c).reading

/-- The reading behind a text. -/
def Reading.after (r : Reading) (text : List Char) : Reading := text.foldl Reading.next r

theorem Reading.after_append (r : Reading) (a b : List Char) :
    r.after (a ++ b) = (r.after a).after b :=
  List.foldl_append

namespace Scan

/-- The reading depends on nothing else in the scan. -/
theorem reading_step (s : Scan) (c : Char) : (s.step c).reading = s.reading.next c := by
  have close (t : Scan) : t.closeBlock.reading = t.reading := by
    rw [closeBlock]
    split <;> rfl
  obtain ⟨frames, done, segment, parens, reading⟩ := s
  rw [Reading.next]
  cases reading with
  | escaped mark => rfl
  | quoted mark =>
    simp only [step]
    split
    · rfl
    · split <;> rfl
  | bare =>
    simp only [step]
    split
    · rfl
    · rfl
    · rfl
    · rfl
    · split <;> rfl
    · rfl
    · rw [close, close]
    · rfl

theorem reading_run (s : Scan) (text : List Char) : (s.run text).reading = s.reading.after text := by
  induction text generalizing s with
  | nil => rfl
  | cons c text ih => exact (ih (s.step c)).trans (congrArg (Reading.after · text) (s.reading_step c))

theorem uncut_of_step {s : Scan} {c : Char} (h : (s.step c).Uncut) : s.Uncut := by
  rcases s.step_cases c with
    ⟨parens, reading, keeps⟩ | ⟨-, -, ends⟩ | ⟨-, -, opens⟩ | ⟨-, -, closes⟩
  · rw [keeps s rfl rfl] at h
    exact h
  · rw [ends] at h
    simp [Uncut, endStatement] at h
  · rw [opens] at h
    simp [Uncut, openBlock] at h
  · rw [closes] at h
    unfold closeBlock at h
    split at h <;> simp [Uncut] at h

theorem uncut_of_run {s : Scan} {text : List Char} (h : (s.run text).Uncut) : s.Uncut := by
  induction text generalizing s with
  | nil => exact h
  | cons c text ih => exact uncut_of_step (ih h)

/-- Where nothing is cut, the character is kept. -/
theorem keeps_of_uncut {s : Scan} {c : Char} (h : (s.step c).Uncut) :
    s.Keeps c (s.step c).parens (s.step c).reading := by
  rcases s.step_cases c with
    ⟨parens, reading, keeps⟩ | ⟨-, -, ends⟩ | ⟨-, -, opens⟩ | ⟨-, -, closes⟩
  · rw [keeps s rfl rfl]
    exact keeps
  · rw [ends] at h
    simp [Uncut, endStatement] at h
  · rw [opens] at h
    simp [Uncut, openBlock] at h
  · rw [closes] at h
    unfold closeBlock at h
    split at h <;> simp [Uncut] at h

/-- A run that cuts nothing does the same wherever parentheses and quotes stand alike. -/
theorem run_elsewhere {s t : Scan} {text : List Char} (h : (s.run text).Uncut)
    (parens : t.parens = s.parens) (reading : t.reading = s.reading) :
    t.run text =
      { t with
        segment := text.reverse ++ t.segment,
        parens := (s.run text).parens, reading := (s.run text).reading } := by
  induction text generalizing s t with
  | nil =>
    cases t
    simp only at parens reading
    simp [run, parens, reading]
  | cons c text ih =>
    have first := keeps_of_uncut (uncut_of_run h) t parens reading
    have later := ih (t := t.step c) h (by rw [first]) (by rw [first])
    have onward (u : Scan) : u.run (c :: text) = (u.step c).run text := rfl
    rw [onward, onward, later, first]
    simp [keep]

end Scan

def PassesOver (text : List Char) : Prop := Scan.run {} text = { segment := text.reverse }

theorem PassesOver.run {text : List Char} (h : PassesOver text) {s : Scan} (idle : s.Idle) :
    s.run text = { s with segment := text.reverse ++ s.segment } := by
  have uncut : (Scan.run {} text).Uncut := by
    rw [h]
    exact ⟨rfl, rfl⟩
  rw [Scan.run_elsewhere uncut idle.1 idle.2, h, ← idle.1, ← idle.2]

theorem PassesOver.append {a b : List Char} (ha : PassesOver a) (hb : PassesOver b) :
    PassesOver (a ++ b) := by
  rw [PassesOver, Scan.run_append, ha, hb.run ⟨rfl, rfl⟩]
  simp

/-- All that a scan looks at outside quotes. -/
def marks : List Char := ['"', '\'', '(', ')', ';', '{', '}']

def IsOrdinary (c : Char) : Prop := c ∉ marks

instance (c : Char) : Decidable (IsOrdinary c) := inferInstanceAs (Decidable (_ ∉ _))

/-- Characters of a kind that no mark is of. -/
theorem isOrdinary_of_kind {kind : Char → Bool} (apart : marks.all (!kind ·) = true) {c : Char}
    (h : kind c = true) : IsOrdinary c := by
  intro mark
  have other := List.all_eq_true.mp apart c mark
  simp [h] at other

namespace Scan

theorem step_ordinary {s : Scan} {c : Char} (bare : s.reading = .bare) (h : IsOrdinary c) :
    s.step c = s.keep c := by
  simp only [IsOrdinary, marks, List.mem_cons, List.not_mem_nil, or_false, not_or] at h
  rw [step_bare c bare]
  simp [h]

theorem run_ordinary {s : Scan} {text : List Char} (bare : s.reading = .bare)
    (h : ∀ c ∈ text, IsOrdinary c) :
    s.run text = { s with segment := text.reverse ++ s.segment } := by
  induction text generalizing s with
  | nil => simp [run]
  | cons c text ih =>
    have first := step_ordinary bare (h c List.mem_cons_self)
    have later := ih (s := s.keep c) bare fun d hd => h d (List.mem_cons_of_mem c hd)
    have onward : s.run (c :: text) = (s.step c).run text := rfl
    rw [onward, first, later]
    simp [keep]

end Scan

theorem passesOver_ordinary {text : List Char} (h : ∀ c ∈ text, IsOrdinary c) :
    PassesOver text := by
  rw [PassesOver, Scan.run_ordinary rfl h]
  simp

theorem passesOver_of_all {text : List Char} (h : text.all (IsOrdinary ·) = true) :
    PassesOver text :=
  passesOver_ordinary (by simpa using h)

theorem passesOver_parens {inner : List Char} (h : ∀ c ∈ inner, IsOrdinary c) :
    PassesOver ('(' :: inner ++ [')']) := by
  have opened : Scan.step {} '(' = { segment := ['('], parens := 1 } := rfl
  have onward (s : Scan) (text : List Char) : s.run ('(' :: text) = (s.step '(').run text := rfl
  rw [PassesOver, List.cons_append, onward, opened, Scan.run_append, Scan.run_ordinary rfl h]
  simp [Scan.run, Scan.step, Scan.keep]

end AuthoredStyle.Sheet
