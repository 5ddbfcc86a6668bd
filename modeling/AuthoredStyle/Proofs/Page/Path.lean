import AuthoredStyle.Page.Path
import AuthoredStyle.Proofs.Page.Ancestry

/-!
# Steps and paths of children

A child's path is its parent's path and one step more.
-/

namespace AuthoredStyle.Page

variable {p : Page} {c h : Handle}

theorem stepOf_root (root : p.parent? h = none) : p.stepOf h = ⟨p.tag h, 1⟩ := by
  rw [stepOf, root]

theorem stepOf_child (link : p.parent? c = some h) :
    p.stepOf c = ⟨p.tag c, p.placeAmong (p.children h) c⟩ := by
  rw [stepOf, link]

theorem pathOf_child (link : p.parent? c = some h) :
    p.pathOf c = p.pathOf h ++ "/" ++
      Step.text ⟨p.tag c, p.placeAmong (p.children h) c⟩ := by
  rw [pathOf, pathOf, p.isWalk_ancestors.step link, List.reverse_cons, List.map_append, pathText,
    pathText, List.map_append, String.join_append, ← stepOf_child link]
  simp [String.append_assoc]

end AuthoredStyle.Page
