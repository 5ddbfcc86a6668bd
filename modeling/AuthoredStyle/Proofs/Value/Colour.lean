import AuthoredStyle.Value.Colour

/-!
# What a rewritten colour shows

A colour in hexadecimal starts with a hash. So a text without a hash behind the rewriting
was not rewritten at all, and no text is rewritten to nothing.
-/

namespace AuthoredStyle.Value

/-- What an opaque colour gives way to is a hash and two digits for each channel. -/
theorem exists_bytes_of_opaqueHex? {arguments hex : List Char}
    (h : opaqueHex? arguments = some hex) :
    ∃ bytes : List UInt8, hex = '#' :: bytes.flatMap hexDigits := by
  have written {channels : List (List Char)} (h : hexOf channels = some hex) :
      ∃ bytes : List UInt8, hex = '#' :: bytes.flatMap hexDigits := by
    obtain ⟨bytes, -, same⟩ := Option.bind_eq_some_iff.mp h
    exact ⟨bytes, (Option.some.inj same).symm⟩
  unfold opaqueHex? at h
  split at h
  · exact written h
  · obtain ⟨alpha, -, h⟩ := Option.bind_eq_some_iff.mp h
    split at h
    · cases h
    · exact written h
  · cases h

theorem hash_mem_of_opaqueHex? {arguments hex : List Char} (h : opaqueHex? arguments = some hex) :
    '#' ∈ hex := by
  obtain ⟨bytes, rfl⟩ := exists_bytes_of_opaqueHex? h
  exact List.mem_cons_self

theorem hexColours_eq_self_of_not_mem {s : List Char} (h : '#' ∉ hexColours s) :
    hexColours s = s := by
  fun_induction hexColours s with
  | case1 => rfl
  | case2 c s head arguments rest found ih =>
    rw [List.mem_append, not_or] at h
    cases hex : opaqueHex? arguments with
    | some text =>
      rw [hex, Option.getD_some] at h
      exact absurd (hash_mem_of_opaqueHex? hex) h.1
    | none =>
      rw [Option.getD_none, ih h.2, eq_of_call? found]
      simp
  | case3 c s _ ih => rw [ih (List.not_mem_of_not_mem_cons h)]

end AuthoredStyle.Value
