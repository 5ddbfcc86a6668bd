import AuthoredStyle.Text.Search

/-!
# Breakpoints of media conditions

A media condition becomes a breakpoint when it holds one of the known
conditions, blanks and case aside. The composite conditions stand first, so the
most specific known condition decides.
-/

namespace AuthoredStyle.Property

def breakpoints : List (String × String) :=
  [("(min-width:768px)and(max-width:1023px)", "tab"),
   ("(min-width:768px)and(max-width:1024px)", "tab"),
   ("(max-width:767px)", "sp"),
   ("(max-width:768px)", "sp"),
   ("(max-width:1023px)", "tab"),
   ("(max-width:1024px)", "tab"),
   ("(min-width:768px)", "pc"),
   ("(min-width:769px)", "pc"),
   ("(min-width:1024px)", "pc-wide"),
   ("(min-width:1025px)", "pc-wide")]

/-- The breakpoint that a media condition stands for. The known conditions are
ASCII, so lowering ASCII letters alone finds each of them. -/
def breakpoint? (condition : List Char) : Option String :=
  let plain := Text.lower (condition.filter (!Text.isBlank ·))
  (breakpoints.find? fun known => Text.holds known.1.toList plain).map (·.2)

theorem mem_breakpoints_of_breakpoint? {condition : List Char} {name : String}
    (h : breakpoint? condition = some name) : name ∈ breakpoints.map (·.2) := by
  obtain ⟨known, found, rfl⟩ := Option.map_eq_some_iff.mp h
  exact List.mem_map_of_mem (List.mem_of_find?_eq_some found)

end AuthoredStyle.Property
