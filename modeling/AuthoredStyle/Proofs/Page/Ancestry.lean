import AuthoredStyle.Page.Basic
import AuthoredStyle.Proofs.Walk

/-!
# Ancestry in a page

One element is above another when parent links lead from the second up to the
first. The list of proper ancestors is the walk along the parent links, so it
holds exactly the elements above, from the nearest to the farthest.
-/

namespace AuthoredStyle.Page

/-- The first element is a proper ancestor of the second. -/
def Above (p : Page) (a h : Handle) : Prop := Reached p.parent? h a

theorem isWalk_ancestors (p : Page) : IsWalk p.parent? p.ancestors where
  stop := by
    intro h root
    rw [ancestors]
    split
    · rfl
    · rename_i a link
      rw [root] at link
      cases link
  step := by
    intro h a link
    rw [ancestors]
    split
    · rename_i root
      rw [link] at root
      cases root
    · rename_i b other
      rw [link] at other
      cases other
      rfl

theorem mem_ancestors_iff {p : Page} {a h : Handle} : a ∈ p.ancestors h ↔ p.Above a h :=
  p.isWalk_ancestors.mem_iff

end AuthoredStyle.Page
