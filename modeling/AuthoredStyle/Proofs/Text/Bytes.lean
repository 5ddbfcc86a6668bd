import AuthoredStyle.Proofs.Text.Trim

/-!
# Byte offsets into a text

A text is held as its UTF-8 bytes, and a reader that goes over the bytes has offsets for places.
An offset may fall inside a character: cutting there, behind the end, or with the ends of
a range in the wrong order stops the program. Each cut is written here with that check, so that
a reader that never faults is one whose cuts are all at characters.
-/

namespace AuthoredStyle.Text

def bytes (text : List Char) : List UInt8 := text.flatMap String.utf8EncodeChar

/-- The length in bytes. -/
def size (text : List Char) : Nat := (bytes text).length

/-- The byte of an ASCII character. -/
def code (c : Char) : UInt8 := UInt8.ofNat c.toNat

def IsAscii (c : Char) : Prop := c.toNat < 128

instance : DecidablePred IsAscii := fun _ => inferInstanceAs (Decidable (_ < _))

theorem bytes_append (a b : List Char) : bytes (a ++ b) = bytes a ++ bytes b :=
  List.flatMap_append

theorem bytes_cons (c : Char) (s : List Char) :
    bytes (c :: s) = String.utf8EncodeChar c ++ bytes s := rfl

@[simp] theorem size_nil : size [] = 0 := rfl

@[simp] theorem size_append (a b : List Char) : size (a ++ b) = size a + size b := by
  rw [size, bytes_append, List.length_append]
  rfl

@[simp] theorem size_cons (c : Char) (s : List Char) : size (c :: s) = c.utf8Size + size s := by
  rw [size, bytes_cons, List.length_append, String.length_utf8EncodeChar]
  rfl

/-! ## The bytes of one character -/

section Encoding

variable {c d : Char}

theorem encode_ascii (h : IsAscii c) : String.utf8EncodeChar c = [code c] := by
  have low : c.val.toNat ≤ 127 := Nat.le_of_lt_succ h
  rw [String.utf8EncodeChar]
  simp only [low, if_true]
  rfl

theorem utf8Size_ascii (h : IsAscii c) : c.utf8Size = 1 := by
  rw [← String.length_utf8EncodeChar, encode_ascii h]
  rfl

theorem size_snoc_ascii (a : List Char) (h : IsAscii c) : size (a ++ [c]) = size a + 1 := by
  rw [size_append, size_cons, utf8Size_ascii h]
  rfl

theorem encode_other (h : ¬ IsAscii c) {b : UInt8} (hb : b ∈ String.utf8EncodeChar c) :
    128 ≤ b.toNat := by
  have high : ¬ c.val.toNat ≤ 127 := fun low => h (Nat.lt_succ_of_le low)
  simp only [String.utf8EncodeChar, high, if_false] at hb
  split at hb
  · simp only [List.mem_cons, List.not_mem_nil, or_false] at hb
    rcases hb with rfl | rfl <;> simp only [UInt8.toNat_ofNat'] <;> omega
  · split at hb
    · simp only [List.mem_cons, List.not_mem_nil, or_false] at hb
      rcases hb with rfl | rfl | rfl <;> simp only [UInt8.toNat_ofNat'] <;> omega
    · simp only [List.mem_cons, List.not_mem_nil, or_false] at hb
      rcases hb with rfl | rfl | rfl | rfl <;> simp only [UInt8.toNat_ofNat'] <;> omega

theorem toNat_code (h : IsAscii c) : (code c).toNat = c.toNat := by
  have small : c.toNat < 128 := h
  rw [code, UInt8.toNat_ofNat']
  omega

theorem code_injective (hc : IsAscii c) (hd : IsAscii d) (same : code c = code d) : c = d := by
  have value := congrArg UInt8.toNat same
  rw [toNat_code hc, toNat_code hd] at value
  exact Char.toNat_inj.mp value

/-- An ASCII byte is no part of another character. -/
theorem eq_of_code_mem (hd : IsAscii d) (h : code d ∈ String.utf8EncodeChar c) : c = d := by
  by_cases hc : IsAscii c
  · rw [encode_ascii hc, List.mem_singleton] at h
    exact code_injective hc hd h.symm
  · have high := encode_other hc h
    have low : d.toNat < 128 := hd
    rw [toNat_code hd] at high
    omega

theorem ne_code_of_mem (hd : IsAscii d) (other : c ≠ d) {b : UInt8}
    (hb : b ∈ String.utf8EncodeChar c) : b ≠ code d := by
  rintro rfl
  exact other (eq_of_code_mem hd hb)

/-- Behind the first byte of a character there is no ASCII byte. -/
theorem code_not_mem_drop (hd : IsAscii d) : code d ∉ (String.utf8EncodeChar c).drop 1 := by
  intro h
  have same := eq_of_code_mem hd (List.mem_of_mem_drop h)
  subst same
  rw [encode_ascii hd] at h
  cases h

end Encoding

theorem getElem_bytes (a : List Char) (c : Char) (b : List Char) {k : Nat}
    (inside : k < c.utf8Size) :
    (bytes (a ++ c :: b))[size a + k]? = (String.utf8EncodeChar c)[k]? := by
  rw [← String.length_utf8EncodeChar] at inside
  rw [bytes_append, bytes_cons, size, List.getElem?_append_right (Nat.le_add_right _ k),
    Nat.add_sub_cancel_left, List.getElem?_append_left inside]

theorem getElem_bytes_ascii (a : List Char) {c : Char} (h : IsAscii c) (b : List Char) :
    (bytes (a ++ c :: b))[size a]? = some (code c) := by
  have first := getElem_bytes a c b c.utf8Size_pos
  rwa [encode_ascii h] at first

/-- A loop that moves on at each of a character's bytes gets behind the character. -/
theorem eq_across {α : Type} {f : Nat → α} (a : List Char) (c : Char) (b : List Char) {k : Nat}
    (within : k ≤ c.utf8Size)
    (moves : ∀ j, ∀ x ∈ (String.utf8EncodeChar c).drop k,
      (bytes (a ++ c :: b))[j]? = some x → f j = f (j + 1)) :
    f (size a + k) = f (size a + c.utf8Size) := by
  have upTo (n : Nat) (from' : k ≤ n) : n ≤ c.utf8Size → f (size a + k) = f (size a + n) := by
    induction n, from' using Nat.le_induction with
    | base => exact fun _ => rfl
    | succ n from' ih =>
      intro inside
      have byte := getElem_bytes a c b (Nat.lt_of_succ_le inside)
      rw [← String.length_utf8EncodeChar] at inside
      obtain ⟨x, here⟩ : ∃ x, (String.utf8EncodeChar c)[n]? = some x :=
        ⟨_, List.getElem?_eq_getElem (Nat.lt_of_succ_le inside)⟩
      have among : x ∈ (String.utf8EncodeChar c).drop k := by
        refine List.mem_of_getElem? (i := n - k) ?_
        rw [List.getElem?_drop, Nat.add_sub_cancel' from', here]
      rw [here] at byte
      rw [ih (by rw [← String.length_utf8EncodeChar]; omega), moves _ x among byte]
      rfl
  exact upTo c.utf8Size within (Nat.le_refl _)

/-! ## Cutting at an offset -/

/-- What stops a run. -/
inductive Fault where
  /-- A cut behind the end or inside a character, or a range that ends before it starts. -/
  | range
  /-- A subtraction from zero. -/
  | underflow
  deriving DecidableEq, Repr

theorem bind_ok {α β : Type} (x : α) (next : α → Except Fault β) :
    Except.ok x >>= next = next x := rfl

/-- The text before an offset and the text behind it. -/
def cutAt (offset : Nat) : List Char → Except Fault (List Char × List Char)
  | [] => if offset = 0 then .ok ([], []) else .error .range
  | c :: s =>
    if offset = 0 then .ok ([], c :: s)
    else if c.utf8Size ≤ offset then
      (cutAt (offset - c.utf8Size) s).map fun (front, behind) => (c :: front, behind)
    else .error .range

def slice (text : List Char) (start stop : Nat) : Except Fault (List Char) := do
  let (front, _) ← cutAt stop text
  let (_, middle) ← cutAt start front
  return middle

/-- The text without a range. -/
def withoutRange (text : List Char) (start stop : Nat) : Except Fault (List Char) := do
  let (front, behind) ← cutAt stop text
  let (before, _) ← cutAt start front
  return before ++ behind

/-- The offset is one of a character or of the end. -/
def Boundary (text : List Char) (offset : Nat) : Prop :=
  ∃ front behind, text = front ++ behind ∧ size front = offset

theorem cutAt_size (front behind : List Char) :
    cutAt (size front) (front ++ behind) = .ok (front, behind) := by
  induction front with
  | nil => cases behind <;> rfl
  | cons c front ih =>
    have more : c.utf8Size + size front ≠ 0 := by
      have := c.utf8Size_pos
      omega
    have fits : c.utf8Size ≤ c.utf8Size + size front := Nat.le_add_right _ _
    rw [size_cons, List.cons_append, cutAt, if_neg more, if_pos fits, Nat.add_sub_cancel_left, ih]
    rfl

theorem cutAt_eq_ok_iff {offset : Nat} {text front behind : List Char} :
    cutAt offset text = .ok (front, behind) ↔ text = front ++ behind ∧ size front = offset := by
  constructor
  · intro h
    induction text generalizing offset front with
    | nil =>
      rw [cutAt] at h
      split at h
      · rename_i none
        cases h
        exact ⟨rfl, none.symm⟩
      · cases h
    | cons c s ih =>
      rw [cutAt] at h
      split at h
      · rename_i none
        cases h
        exact ⟨rfl, none.symm⟩
      · split at h
        · rename_i fits
          cases rest : cutAt (offset - c.utf8Size) s with
          | error fault =>
            rw [rest] at h
            cases h
          | ok parts =>
            rw [rest] at h
            cases h
            obtain ⟨rfl, length⟩ := ih rest
            exact ⟨rfl, by rw [size_cons, length]; omega⟩
        · cases h
  · rintro ⟨rfl, rfl⟩
    exact cutAt_size front behind

theorem slice_eq_ok_iff {text t : List Char} {start stop : Nat} :
    slice text start stop = .ok t ↔
      ∃ a b, text = a ++ t ++ b ∧ size a = start ∧ size (a ++ t) = stop := by
  constructor
  · intro h
    rw [slice] at h
    cases outer : cutAt stop text with
    | error fault =>
      rw [outer] at h
      cases h
    | ok parts =>
      obtain ⟨front, behind⟩ := parts
      rw [outer, bind_ok] at h
      dsimp only at h
      cases inner : cutAt start front with
      | error fault =>
        rw [inner] at h
        cases h
      | ok parts' =>
        obtain ⟨before, middle⟩ := parts'
        rw [inner] at h
        cases h
        obtain ⟨rfl, stops⟩ := cutAt_eq_ok_iff.mp outer
        obtain ⟨rfl, starts⟩ := cutAt_eq_ok_iff.mp inner
        exact ⟨before, behind, rfl, starts, stops⟩
  · rintro ⟨a, b, rfl, rfl, rfl⟩
    rw [slice, cutAt_size, bind_ok]
    dsimp only
    rw [cutAt_size]
    rfl

theorem slice_append (a t b : List Char) :
    slice (a ++ t ++ b) (size a) (size a + size t) = .ok t :=
  slice_eq_ok_iff.mpr ⟨a, b, rfl, rfl, size_append a t⟩

theorem slice_front (a b : List Char) : slice (a ++ b) 0 (size a) = .ok a := by
  have cut := slice_append [] a b
  rwa [List.nil_append, size_nil, Nat.zero_add] at cut

theorem slice_behind (a b : List Char) : slice (a ++ b) (size a) (size (a ++ b)) = .ok b := by
  have cut := slice_append a b []
  rwa [List.append_nil, ← size_append] at cut

theorem withoutRange_append (a t b : List Char) :
    withoutRange (a ++ t ++ b) (size a) (size a + size t) = .ok (a ++ b) := by
  rw [withoutRange, ← size_append, cutAt_size, bind_ok]
  dsimp only
  rw [cutAt_size]
  rfl

end AuthoredStyle.Text
