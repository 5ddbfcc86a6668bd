import AuthoredStyle.Proofs.Sheet.Enclosed
import AuthoredStyle.Proofs.Text.Bytes

/-!
# Scanning by byte offsets

The pieces of a sheet can be found without building them: three loops go over the bytes and keep
offsets only. One skips a string, one finds the brace that closes a block by counting, and one
cuts statements and blocks out of the text. What is inside a block is not looked at, and a
backslash skips a byte and not a character, so an offset may come to stand inside a character or
behind the end. Every cut and every subtraction is checked here; none of them fails, and the
items found are those of the pieces.
-/

namespace AuthoredStyle.Sheet

open Text

/-- What the loop finds: a statement with its place, or a block with its range. -/
inductive PlacedItem where
  | statement (said : List Char) (start : Nat)
  | block (prelude body : List Char) (start stop : Nat)
  deriving DecidableEq, Repr

def PlacedItem.start : PlacedItem → Nat
  | .statement _ start | .block _ _ start _ => start

def PlacedItem.stop : PlacedItem → Nat
  | .statement said start => start + size said
  | .block _ _ _ stop => stop

/-- A statement is where its trimmed text is. -/
def statementItem? (segment : List Char) (start : Nat) : Option PlacedItem :=
  let said := trim segment
  if said.isEmpty then none
  else some (.statement said (start + size (segment.takeWhile isBlank)))

/-! ## The loops -/

def IsQuote (x : UInt8) : Prop := x = code '"' ∨ x = code '\''

instance : DecidablePred IsQuote := fun _ => inferInstanceAs (Decidable (_ ∨ _))

/-- The end of a string, from a place inside it. -/
def stringEnd (text : List UInt8) (quote : UInt8) (i : Nat) : Nat :=
  if inside : i < text.length then
    if text[i] = code '\\' then stringEnd text quote (i + 2)
    else if text[i] = quote then i + 1
    else stringEnd text quote (i + 1)
  else text.length
termination_by text.length - i

def skipString (text : List UInt8) (opening : Nat) (inside : opening < text.length) : Nat :=
  stringEnd text text[opening] (opening + 1)

theorem le_stringEnd (text : List UInt8) (quote : UInt8) (i : Nat) :
    min i text.length ≤ stringEnd text quote i := by
  fun_induction stringEnd text quote i with
  | case1 i inside escape ih => omega
  | case2 i inside escape closes => omega
  | case3 i inside escape other ih => omega
  | case4 i beyond => omega

theorem lt_skipString {text : List UInt8} {i : Nat} (inside : i < text.length) :
    i < skipString text i inside := by
  have := le_stringEnd text text[i] (i + 1)
  rw [skipString]
  omega

def less : Nat → Except Fault Nat
  | 0 => .error .underflow
  | n + 1 => .ok n

/-- The place of the brace that closes the block a brace opens, counting from `depth`. -/
def matchingBrace (text : List UInt8) (depth i : Nat) : Except Fault (Option Nat) :=
  if inside : i < text.length then
    if IsQuote text[i] then matchingBrace text depth (skipString text i inside)
    else if text[i] = code '{' then matchingBrace text (depth + 1) (i + 1)
    else if text[i] = code '}' then
      match less depth with
      | .error fault => .error fault
      | .ok depth => if depth = 0 then .ok (some i) else matchingBrace text depth (i + 1)
    else matchingBrace text depth (i + 1)
  else .ok none
termination_by text.length - i
decreasing_by
  · have := lt_skipString inside
    omega
  all_goals omega

theorem le_of_matchingBrace {text : List UInt8} {depth i close : Nat}
    (h : matchingBrace text depth i = .ok (some close)) : i ≤ close := by
  fun_induction matchingBrace text depth i with
  | case1 depth i inside quote ih =>
    have := lt_skipString inside
    have := ih h
    omega
  | case2 depth i inside quote opens ih =>
    have := ih h
    omega
  | case3 => cases h
  | case4 depth i =>
    cases h
    exact Nat.le_refl _
  | case5 depth i inside quote opens closes rest ok more ih =>
    have := ih h
    omega
  | case6 depth i inside quote opens closes ih =>
    have := ih h
    omega
  | case7 => cases h

/-- The items from `i` on; the segment that `i` is in starts at `start`. -/
def scanFrom (text : List Char) (start parens i : Nat) : Except Fault (List PlacedItem) :=
  if inside : i < (bytes text).length then
    if IsQuote (bytes text)[i] then scanFrom text start parens (skipString (bytes text) i inside)
    else if (bytes text)[i] = code '(' then scanFrom text start (parens + 1) (i + 1)
    else if (bytes text)[i] = code ')' then scanFrom text start (parens - 1) (i + 1)
    else if (bytes text)[i] = code ';' ∧ parens = 0 then do
      let segment ← slice text start i
      let later ← scanFrom text (i + 1) parens (i + 1)
      return (statementItem? segment start).toList ++ later
    else if (bytes text)[i] = code '{' then
      match found : matchingBrace (bytes text) 0 i with
      | .error fault => .error fault
      | .ok none => .ok []
      | .ok (some close) => do
        let lead ← slice text start i
        let body ← slice text (i + 1) close
        let later ← scanFrom text (close + 1) 0 (close + 1)
        return .block (trim lead) body start (close + 1) :: later
    else if (bytes text)[i] = code '}' then scanFrom text (i + 1) parens (i + 1)
    else scanFrom text start parens (i + 1)
  else do
    let segment ← slice text start (size text)
    return (statementItem? segment start).toList
termination_by (bytes text).length - i
decreasing_by
  · have := lt_skipString inside
    omega
  · omega
  · omega
  · omega
  · have := le_of_matchingBrace found
    omega
  · omega
  · omega

def scanItems (text : List Char) : Except Fault (List PlacedItem) := scanFrom text 0 0 0

/-! ## One round of a loop -/

section Rounds

variable {text : List UInt8} {i : Nat} {x : UInt8}

theorem stringEnd_beyond (quote : UInt8) (beyond : text.length ≤ i) :
    stringEnd text quote i = text.length := by
  rw [stringEnd, dif_neg (Nat.not_lt.mpr beyond)]

theorem stringEnd_at (quote : UInt8) (here : text[i]? = some x) :
    stringEnd text quote i =
      if x = code '\\' then stringEnd text quote (i + 2)
      else if x = quote then i + 1
      else stringEnd text quote (i + 1) := by
  obtain ⟨inside, rfl⟩ := List.getElem?_eq_some_iff.mp here
  rw [stringEnd, dif_pos inside]

theorem matchingBrace_beyond (depth : Nat) (beyond : text.length ≤ i) :
    matchingBrace text depth i = .ok none := by
  rw [matchingBrace, dif_neg (Nat.not_lt.mpr beyond)]

/-- With a brace open. -/
theorem matchingBrace_at (depth : Nat) (here : text[i]? = some x) :
    matchingBrace text (depth + 1) i =
      if IsQuote x then matchingBrace text (depth + 1) (stringEnd text x (i + 1))
      else if x = code '{' then matchingBrace text (depth + 2) (i + 1)
      else if x = code '}' then
        if depth = 0 then .ok (some i) else matchingBrace text depth (i + 1)
      else matchingBrace text (depth + 1) (i + 1) := by
  obtain ⟨inside, rfl⟩ := List.getElem?_eq_some_iff.mp here
  rw [matchingBrace, dif_pos inside]
  rfl

theorem matchingBrace_opening (here : text[i]? = some (code '{')) :
    matchingBrace text 0 i = matchingBrace text 1 (i + 1) := by
  obtain ⟨inside, byte⟩ := List.getElem?_eq_some_iff.mp here
  have noQuote : ¬ IsQuote text[i] := by
    rw [byte]
    decide
  rw [matchingBrace, dif_pos inside, if_neg noQuote, if_pos byte]

/-- Whatever the bytes, nothing is subtracted from zero once a brace is open. -/
theorem exists_matchingBrace (text : List UInt8) {depth : Nat} (opened : depth ≠ 0) (i : Nat) :
    ∃ close, matchingBrace text depth i = .ok close := by
  fun_induction matchingBrace text depth i with
  | case1 depth i inside quote ih => exact ih opened
  | case2 depth i inside quote opens ih => exact ih (Nat.succ_ne_zero depth)
  | case3 depth i inside quote opens closes fault faulted =>
    cases depth with
    | zero => exact absurd rfl opened
    | succ depth => cases faulted
  | case4 depth i => exact ⟨some i, rfl⟩
  | case5 depth i inside quote opens closes rest ok more ih => exact ih more
  | case6 depth i inside quote opens closes ih => exact ih opened
  | case7 => exact ⟨none, rfl⟩

end Rounds

section Rounds

variable {text : List Char} {start i : Nat}

theorem scanFrom_end (parens : Nat) (ends : i = size text) :
    scanFrom text start parens i = (do
      let segment ← slice text start (size text)
      return (statementItem? segment start).toList) := by
  subst ends
  rw [scanFrom, dif_neg (show ¬ size text < (bytes text).length from Nat.lt_irrefl _)]

theorem scanFrom_at (parens : Nat) {x : UInt8} (here : (bytes text)[i]? = some x) :
    scanFrom text start parens i =
      if IsQuote x then scanFrom text start parens (stringEnd (bytes text) x (i + 1))
      else if x = code '(' then scanFrom text start (parens + 1) (i + 1)
      else if x = code ')' then scanFrom text start (parens - 1) (i + 1)
      else if x = code ';' ∧ parens = 0 then do
        let segment ← slice text start i
        let later ← scanFrom text (i + 1) parens (i + 1)
        return (statementItem? segment start).toList ++ later
      else if x = code '{' then do
        match ← matchingBrace (bytes text) 0 i with
        | none => return []
        | some close =>
          let lead ← slice text start i
          let body ← slice text (i + 1) close
          let later ← scanFrom text (close + 1) 0 (close + 1)
          return .block (trim lead) body start (close + 1) :: later
      else if x = code '}' then scanFrom text (i + 1) parens (i + 1)
      else scanFrom text start parens (i + 1) := by
  obtain ⟨inside, rfl⟩ := List.getElem?_eq_some_iff.mp here
  rw [scanFrom, dif_pos inside]
  congr 5
  split <;> rename_i found <;> rw [found] <;> rfl

end Rounds

/-! ## Where the loops stand -/

/-- The only quotes are the two kinds. -/
def Reading.Marked (r : Reading) : Prop :=
  ∀ mark, r = .quoted mark ∨ r = .escaped mark → mark = '"' ∨ mark = '\''

/-- Where an outer loop goes on, having met the start of the string that `i` is in. -/
def resume (text : List UInt8) (r : Reading) (i : Nat) : Nat :=
  match r with
  | .bare => i
  | .quoted mark => stringEnd text (code mark) i
  | .escaped mark => stringEnd text (code mark) (i + 1)

theorem resume_end (text : List Char) (r : Reading) :
    resume (bytes text) r (size text) = size text := by
  cases r with
  | bare => rfl
  | quoted mark => exact stringEnd_beyond _ (Nat.le_refl _)
  | escaped mark => exact stringEnd_beyond _ (Nat.le_succ _)

theorem Reading.next_bare (c : Char) :
    Reading.bare.next c = if c = '"' ∨ c = '\'' then .quoted c else .bare := by
  have step := Scan.step_bare (s := {}) c rfl
  rw [Reading.next, step]
  split
  · rfl
  · unfold Scan.closeBlock
    repeat' split
    all_goals rfl

theorem Reading.next_quoted (mark c : Char) :
    (Reading.quoted mark).next c =
      if c = '\\' then .escaped mark else if c = mark then .bare else .quoted mark := by
  rw [Reading.next, Scan.step_quoted c rfl]
  repeat' split
  all_goals rfl

theorem Reading.Marked.next {r : Reading} (h : r.Marked) (c : Char) : (r.next c).Marked := by
  cases r with
  | bare =>
    rw [Reading.next_bare]
    split
    · rename_i quote
      rintro mark (⟨⟨⟩⟩ | ⟨⟨⟩⟩)
      exact quote
    · rintro mark (⟨⟨⟩⟩ | ⟨⟨⟩⟩)
  | quoted mark =>
    have kind := h mark (.inl rfl)
    rw [Reading.next_quoted]
    repeat' split
    · rintro m (⟨⟨⟩⟩ | ⟨⟨⟩⟩)
      exact kind
    · rintro m (⟨⟨⟩⟩ | ⟨⟨⟩⟩)
    · rintro m (⟨⟨⟩⟩ | ⟨⟨⟩⟩)
      exact kind
  | escaped mark =>
    rintro m (⟨⟨⟩⟩ | ⟨⟨⟩⟩)
    exact h mark (.inr rfl)

/-- Inside a string each character is passed, and its end is found where the scan finds it. -/
theorem resume_next {r : Reading} (marked : r.Marked) (inside : r ≠ .bare) (a : List Char)
    (c : Char) (b : List Char) :
    resume (bytes (a ++ c :: b)) r (size a) =
      resume (bytes (a ++ c :: b)) (r.next c) (size (a ++ [c])) := by
  have behind : size (a ++ [c]) = size a + c.utf8Size := by simp
  rw [behind]
  have slash : IsAscii '\\' := by decide
  have ascii {mark : Char} (kind : mark = '"' ∨ mark = '\'') : IsAscii mark := by
    rcases kind with rfl | rfl <;> decide
  cases r with
  | bare => exact absurd rfl inside
  | escaped mark =>
    -- the backslash took the first byte with it; the others are those of no ASCII character
    refine eq_across (f := stringEnd _ (code mark)) a c b c.utf8Size_pos fun j x hx here => ?_
    have noSlash : x ≠ code '\\' := by
      rintro rfl
      exact code_not_mem_drop slash hx
    have stays : x ≠ code mark := by
      rintro rfl
      exact code_not_mem_drop (ascii (marked mark (.inr rfl))) hx
    rw [stringEnd_at _ here, if_neg noSlash, if_neg stays]
  | quoted mark =>
    have kind := marked mark (.inl rfl)
    rw [Reading.next_quoted]
    by_cases escape : c = '\\'
    · subst escape
      rw [if_pos rfl, utf8Size_ascii slash, resume, stringEnd_at _ (getElem_bytes_ascii a slash b),
        if_pos rfl]
      rfl
    · rw [if_neg escape]
      by_cases closes : c = mark
      · subst closes
        have other : code c ≠ code '\\' := fun same =>
          escape (code_injective (ascii kind) slash same)
        rw [if_pos rfl, utf8Size_ascii (ascii kind)]
        change stringEnd _ (code c) (size a) = size a + 1
        rw [stringEnd_at _ (getElem_bytes_ascii a (ascii kind) b), if_neg other, if_pos rfl]
      · rw [if_neg closes]
        refine eq_across (f := stringEnd _ (code mark)) a c b (Nat.zero_le _) fun j x hx here => ?_
        rw [stringEnd_at _ here, if_neg (ne_code_of_mem slash escape hx),
          if_neg (ne_code_of_mem (ascii kind) closes hx)]

/-! ## The brace that closes a block -/

theorem Scan.frames_step {s : Scan} {c : Char}
    (h : s.reading = .bare → c ≠ '{' ∧ c ≠ '}') : (s.step c).frames = s.frames := by
  rcases s.step_cases c with
    ⟨parens, reading, keeps⟩ | ⟨-, -, ends⟩ | ⟨opening, bare, -⟩ | ⟨closing, bare, -⟩
  · rw [keeps s rfl rfl]
    rfl
  · rw [ends]
    rfl
  · exact absurd opening (h bare).1
  · exact absurd closing (h bare).2

theorem isQuote_code {c : Char} (quote : c = '"' ∨ c = '\'') : IsAscii c ∧ IsQuote (code c) := by
  rcases quote with rfl | rfl <;> decide

/-- The bytes of a character that is no quote are no quotes. -/
theorem not_isQuote {c : Char} (other : ¬ (c = '"' ∨ c = '\'')) {x : UInt8}
    (hx : x ∈ String.utf8EncodeChar c) : ¬ IsQuote x := by
  rintro (quote | quote)
  · exact ne_code_of_mem (by decide) (fun same => other (.inl same)) hx quote
  · exact ne_code_of_mem (by decide) (fun same => other (.inr same)) hx quote

/-- A round for each character: as many blocks are counted as the scan has open. -/
theorem matchingBrace_step {t : Scan} (marked : t.reading.Marked) (a : List Char) {c : Char}
    (b : List Char) (within : ¬ (c = '}' ∧ t.reading = .bare ∧ t.frames = [])) :
    matchingBrace (bytes (a ++ c :: b)) (t.frames.length + 1)
        (resume (bytes (a ++ c :: b)) t.reading (size a)) =
      matchingBrace (bytes (a ++ c :: b)) ((t.step c).frames.length + 1)
        (resume (bytes (a ++ c :: b)) (t.step c).reading (size (a ++ [c]))) := by
  rw [t.reading_step c]
  by_cases bare : t.reading = .bare
  · rw [bare, Reading.next_bare]
    by_cases quote : c = '"' ∨ c = '\''
    · obtain ⟨ascii, quotes⟩ := isQuote_code quote
      have same : (t.step c).frames = t.frames := Scan.frames_step fun _ => by
        rcases quote with rfl | rfl <;> decide
      rw [if_pos quote, same, size_snoc_ascii a ascii, resume,
        matchingBrace_at _ (getElem_bytes_ascii a ascii b), if_pos quotes]
      rfl
    rw [if_neg quote]
    by_cases opening : c = '{'
    · subst opening
      rw [Scan.step_opening bare, size_snoc_ascii a (by decide), resume,
        matchingBrace_at _ (getElem_bytes_ascii a (by decide) b), if_neg (by decide), if_pos rfl]
      rfl
    by_cases closing : c = '}'
    · subst closing
      obtain ⟨f, outer, framed⟩ := List.exists_cons_of_ne_nil fun none => within ⟨rfl, bare, none⟩
      rw [Scan.step_closing bare, Scan.closeBlock, framed, size_snoc_ascii a (by decide), resume,
        matchingBrace_at _ (getElem_bytes_ascii a (by decide) b), if_neg (by decide),
        if_neg (by decide), if_pos rfl, List.length_cons, if_neg (Nat.succ_ne_zero _)]
      rfl
    · have same : (t.step c).frames = t.frames := Scan.frames_step fun _ => ⟨opening, closing⟩
      rw [same]
      have across := eq_across (f := matchingBrace (bytes (a ++ c :: b)) (t.frames.length + 1))
        a c b (Nat.zero_le _) fun j x hx here => by
          rw [matchingBrace_at _ here, if_neg (not_isQuote quote hx),
            if_neg (ne_code_of_mem (by decide) opening hx),
            if_neg (ne_code_of_mem (by decide) closing hx)]
      have size : size (a ++ [c]) = size a + c.utf8Size := by simp
      rw [size]
      exact across
  · have same : (t.step c).frames = t.frames := Scan.frames_step fun h => absurd h bare
    rw [same, resume_next marked bare]

/-- The loop stops at the brace that closes the outermost block of the scan, if there is one. -/
theorem matchingBrace_run {t : Scan} (marked : t.reading.Marked) (unstrayed : t.Unstrayed)
    (a b : List Char) :
    (∃ m rest, b = m ++ '}' :: rest ∧ (t.run m).reading = .bare ∧ (t.run m).frames = [] ∧
        (t.run m).Unstrayed ∧
        matchingBrace (bytes (a ++ b)) (t.frames.length + 1)
          (resume (bytes (a ++ b)) t.reading (size a)) = .ok (some (size (a ++ m)))) ∨
      (t.run b).Unstrayed ∧
        matchingBrace (bytes (a ++ b)) (t.frames.length + 1)
          (resume (bytes (a ++ b)) t.reading (size a)) = .ok none := by
  induction b generalizing a t with
  | nil =>
    refine .inr ⟨unstrayed, ?_⟩
    rw [List.append_nil, resume_end]
    exact matchingBrace_beyond _ (Nat.le_refl _)
  | cons c b ih =>
    by_cases closes : c = '}' ∧ t.reading = .bare ∧ t.frames = []
    · obtain ⟨rfl, bare, none⟩ := closes
      refine .inl ⟨[], b, rfl, bare, none, unstrayed, ?_⟩
      rw [bare, none, List.append_nil, resume, List.length_nil,
        matchingBrace_at _ (getElem_bytes_ascii a (by decide) b), if_neg (by decide),
        if_neg (by decide), if_pos rfl, if_pos rfl]
    · have step := matchingBrace_step marked a b closes
      have marked' : (t.step c).reading.Marked := by
        rw [t.reading_step c]
        exact marked.next c
      have whole : a ++ c :: b = a ++ [c] ++ b := by simp
      rcases ih marked' (unstrayed.step closes) (a ++ [c]) with
        ⟨m, rest, rfl, bare, none, inside, found⟩ | ⟨inside, found⟩
      · refine .inl ⟨c :: m, rest, rfl, bare, none, inside, ?_⟩
        rw [step, whole, found]
        simp
      · exact .inr ⟨inside, by rw [step, whole, found]⟩

end AuthoredStyle.Sheet
