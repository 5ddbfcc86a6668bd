import AuthoredStyle.Proofs.Dom.TextContent
import AuthoredStyle.Proofs.Dom.TextNode

/-!
# Text goes on the text in front of it

Text that is put somewhere in a list should go on the text that stands right in front of it
there, and be a node of its own only if there is none. Text that is appended does. Text that is
inserted before a sibling never does: it is always a node of its own, and where a text stands
in front of the sibling there are then two texts side by side. What is written below the
parent reads as it should in both cases.

Text is inserted under the parent that the sibling's link names. A comment has no link, and
nothing is inserted before it.
-/

namespace AuthoredStyle.Dom.Table

variable {t t' : Table} {p c x : NodeId} {before behind : List NodeId} {s u : String}

/-! ## Two ways of putting text -/

/-- A text node that reads `u` goes on with `s`; nothing else changes. -/
structure Extends (t t' : Table) (c : NodeId) (u s : String) : Prop where
  size : t'.nodes.size = t.nodes.size
  children : ∀ q, t'.children q = t.children q
  parent? : ∀ y, t'.parent? y = t.parent? y
  content? : ∀ y, t'.content? y = if y = c then some (.text (u ++ s)) else t.content? y

/-- One node is made, a text `s`, and stands between two parts of a list; nothing else
changes. -/
structure Adds (t t' : Table) (p : NodeId) (before behind : List NodeId) (s : String) : Prop where
  size : t'.nodes.size = t.nodes.size + 1
  children : ∀ q, t'.children q = if q = p then before ++ t.nodes.size :: behind else t.children q
  parent? : ∀ y, t'.parent? y = t.parent? y
  content? : ∀ y, t'.content? y = if y = t.nodes.size then some (.text s) else t.content? y

theorem extends_extendText (text : t.text? c = some u) (s : String) :
    Extends t (t.extendText c s) c u s where
  size := (alike_extendText s).size
  children := (alike_extendText s).children
  parent? := (alike_extendText s).parent?
  content? y := content?_extendText y text s

section Insert

variable {f : NodeId → List NodeId → List NodeId}

/-- A text that is made now has no list. -/
theorem isParent_create_text (q : NodeId) : (t.create (.text s)).1.isParent q = t.isParent q := by
  rw [isParent_create]
  split
  · next new => rw [new, isParent_of_size_le (Nat.le_refl _)]; rfl
  · rfl

theorem isElement_create_text (y : NodeId) :
    (t.create (.text s)).1.isElement y = t.isElement y := by
  rw [isElement_create]
  split
  · next new => rw [new, isElement_of_size_le (Nat.le_refl _)]; rfl
  · rfl

theorem insert_text_eq :
    t.insert p (.text s) f = (t.create (.text s)).1.place t.nodes.size p (f t.nodes.size) := rfl

theorem children_insert_text (q : NodeId) :
    (t.insert p (.text s) f).children q =
      if q = p ∧ t.isParent q then f t.nodes.size (t.children q) else t.children q := by
  rw [insert_text_eq, children_place, children_create, isParent_create_text]

theorem content?_insert_text (y : NodeId) :
    (t.insert p (.text s) f).content? y =
      if y = t.nodes.size then some (.text s) else t.content? y := by
  rw [insert_text_eq, place, content?_setChildren, content?_setParent, content?_create]

theorem parent?_insert_text (y : NodeId) :
    (t.insert p (.text s) f).parent? y = t.parent? y := by
  rw [insert_text_eq, parent?_place, isElement_create_text, if_neg, parent?_create]
  rintro ⟨rfl, element⟩
  rw [isElement_of_size_le (Nat.le_refl _)] at element
  cases element

theorem size_insert_text : (t.insert p (.text s) f).nodes.size = t.nodes.size + 1 := by
  rw [insert_text_eq, place, size_setChildren, size_setParent, size_create]

theorem adds_insert (list : t.isParent p)
    (placed : f t.nodes.size (t.children p) = before ++ t.nodes.size :: behind) :
    Adds t (t.insert p (.text s) f) p before behind s where
  size := size_insert_text
  children q := by
    rw [children_insert_text]
    by_cases here : q = p
    · rw [here, if_pos ⟨rfl, list⟩, if_pos rfl, placed]
    · rw [if_neg (fun both => here both.1), if_neg here]
  parent? := parent?_insert_text
  content? := content?_insert_text

end Insert

theorem append_text_of_text (last : (t.children p).getLast? = some c) (text : t.text? c = some u) :
    t.append p (.text s) = t.extendText c s := by
  have there : t.lastText? p = some c := by simp [lastText?, last, text]
  simp only [append, there]

theorem append_text_of_not_text (other : ∀ c ∈ (t.children p).getLast?, t.text? c = none) :
    t.append p (.text s) = t.insert p (.text s) fun x l => l ++ [x] := by
  have absent : t.lastText? p = none := by
    rw [lastText?, Option.filter_eq_none_iff]
    intro c last
    simp [other c last]
  simp only [append, absent]
  rfl

/-- A node goes in front of the first place of its sibling. -/
theorem insertBefore_eq_iff {new : NodeId} (fresh : new ∉ before) :
    insertBefore new x (before ++ x :: behind) = before ++ new :: x :: behind ↔ x ∉ before := by
  induction before with
  | nil => simp [insertBefore]
  | cons b before ih =>
    rw [List.mem_cons, not_or] at fresh
    rw [List.cons_append, insertBefore, List.cons_append, List.mem_cons, not_or]
    split
    · next same => simp [same ▸ fresh.1, same]
    · next other =>
      rw [List.cons_eq_cons, and_iff_right rfl, ih fresh.2, and_iff_right (Ne.symm other)]

/-! ## What is written below the parent -/

section Written

variable (acyclic : t.Acyclic) (made : t.WellMade) (list : t.children p = before ++ behind)

include acyclic made list

/-- The new text does not change what is written in front of it and behind it. -/
theorem Adds.textContent (adds : Adds t t' p before behind s) :
    t'.textContent p = t.textBelow before ++ s ++ t.textBelow behind := by
  have kept (l : List NodeId) (part : ∀ x ∈ l, x ∈ t.children p) :
      t'.textBelow l = t.textBelow l := by
    apply acyclic.textBelow_part made part (adds.size ▸ Nat.le_succ _)
    · intro q other
      rw [adds.children, if_neg other]
    · intro x mem y below
      have old := made.lt_size_of_within (made.inside p x (part x mem)) below
      rw [adds.content?, if_neg (Nat.ne_of_lt old)]
  have new : t'.textBelow [t.nodes.size] = s :=
    textBelow_of_text (by rw [adds.content?, if_pos rfl])
  have partFront : ∀ x ∈ before, x ∈ t.children p := fun x mem => by simp [list, mem]
  have partBehind : ∀ x ∈ behind, x ∈ t.children p := fun x mem => by simp [list, mem]
  rw [Table.textContent, adds.children, if_pos rfl, List.append_cons, textBelow_append,
    textBelow_append, new, kept before partFront, kept behind partBehind]

theorem Extends.textContent (once : t.Once c) (text : t.text? c = some u)
    (last : before.getLast? = some c) (ext : Extends t t' c u s) :
    t'.textContent p = t.textBelow before ++ s ++ t.textBelow behind := by
  obtain ⟨front, rfl⟩ : ∃ front, before = front ++ [c] := List.getLast?_eq_some_iff.mp last
  have held : c ∈ t.children p := by simp [list]
  have single : (front ++ [c] ++ behind).count c ≤ 1 := list ▸ once.single p
  simp only [List.count_append, List.count_singleton_self] at single
  have kept (l : List NodeId) (part : ∀ x ∈ l, x ∈ t.children p) (absent : c ∉ l) :
      t'.textBelow l = t.textBelow l := by
    apply acyclic.textBelow_part made part (Nat.le_of_eq ext.size.symm)
    · exact fun q _ => ext.children q
    · intro x mem y below
      rw [ext.content?, if_neg]
      rintro rfl
      -- the text is listed once, by `p`, so a way down to it passes `p`
      cases below with
      | self => exact absent mem
      | child above again => exact acyclic p x (part x mem) (once.oneList again held ▸ above)
  have longer : t'.textBelow [c] = t.textBelow [c] ++ s := by
    rw [textBelow_of_text (text?_eq_some_iff.mp text),
      textBelow_of_text (by rw [ext.content?, if_pos rfl])]
  have inFront : c ∉ front := List.count_eq_zero.mp (by omega)
  have inBehind : c ∉ behind := List.count_eq_zero.mp (by omega)
  have partFront : ∀ x ∈ front, x ∈ t.children p := fun x mem => by simp [list, mem]
  have partBehind : ∀ x ∈ behind, x ∈ t.children p := fun x mem => by simp [list, mem]
  rw [Table.textContent, ext.children, list, textBelow_append, textBelow_append, longer,
    kept front partFront inFront, kept behind partBehind inBehind, textBelow_append,
    ← String.append_assoc]

end Written

/-! ## Text between two parts of a list -/

/-- Text that is put between two parts of a node's list goes on the text in front of it, or is
one new node there if none stands in front of it. What is written below the node is what was
written there, with the new text at its place. -/
structure Coalesces (t t' : Table) (p : NodeId) (before behind : List NodeId) (s : String) :
    Prop where
  merged : ∀ c u, before.getLast? = some c → t.text? c = some u → Extends t t' c u s
  added : (∀ c ∈ before.getLast?, t.text? c = none) → Adds t t' p before behind s
  written : t'.textContent p = t.textBelow before ++ s ++ t.textBelow behind

theorem Reachable.coalesces_append (reachable : t.Reachable) (list : t.isParent p) (s : String) :
    Coalesces t (t.append p (.text s)) p (t.children p) [] s := by
  have made := reachable.wellMade
  have acyclic := reachable.acyclic
  have whole : t.children p = t.children p ++ [] := (List.append_nil _).symm
  have added (other : ∀ c ∈ (t.children p).getLast?, t.text? c = none) :
      Adds t (t.append p (.text s)) p (t.children p) [] s := by
    rw [append_text_of_not_text other]
    exact adds_insert list rfl
  have merged (c : NodeId) (u : String) (last : (t.children p).getLast? = some c)
      (text : t.text? c = some u) : Extends t (t.append p (.text s)) c u s := by
    rw [append_text_of_text last text]
    exact extends_extendText text s
  refine ⟨merged, added, ?_⟩
  by_cases other : ∀ c ∈ (t.children p).getLast?, t.text? c = none
  · exact (added other).textContent acyclic made whole
  · push Not at other
    obtain ⟨c, last, text⟩ := other
    obtain ⟨u, text⟩ := Option.ne_none_iff_exists'.mp text
    have once := reachable.textsOnce c (by rw [text]; rfl)
    exact (merged c u last text).textContent acyclic made whole once text last

theorem content?_appendBefore_text {y : NodeId} (old : y < t.nodes.size) :
    (t.appendBefore x (.text s)).content? y = t.content? y := by
  rw [appendBefore_eq]
  split
  · rfl
  · rw [content?_insert_text, if_neg (Nat.ne_of_lt old)]

section AppendBefore

variable (made : t.WellMade) (list : t.children p = before ++ x :: behind)

include made list

/-- Exactly where the sibling's link names the node, and the list does not hold the sibling
earlier, a text of its own comes in front of the sibling. -/
theorem adds_appendBefore_iff :
    Adds t (t.appendBefore x (.text s)) p before (x :: behind) s ↔
      t.parent? x = some p ∧ x ∉ before := by
  have parent : t.isParent p := by
    by_contra leaf
    rw [made.barren p (Bool.eq_false_iff.mpr leaf)] at list
    simp at list
  have fresh : t.nodes.size ∉ before := fun mem =>
    made.not_isHeld (p := p) (by rw [list]; exact List.mem_append_left _ mem)
  rw [appendBefore_eq]
  constructor
  · intro adds
    cases link : t.parent? x with
    | none =>
      rw [link] at adds
      exact absurd adds.size (Nat.ne_of_lt (Nat.lt_succ_self _))
    | some q =>
      rw [link] at adds
      have there := adds.children p
      rw [if_pos rfl, children_insert_text] at there
      split at there
      · next here =>
        rw [list, insertBefore_eq_iff fresh] at there
        exact ⟨here.1 ▸ rfl, there⟩
      · -- under another node the list would not have changed
        have longer := congrArg List.length (list.symm.trans there)
        simp at longer
  · rintro ⟨link, first⟩
    rw [link]
    refine adds_insert parent ?_
    rw [list]
    exact (insertBefore_eq_iff fresh).mpr first

theorem not_extends_appendBefore (last : before.getLast? = some c) (text : t.text? c = some u)
    (full : s ≠ "") : ¬ Extends t (t.appendBefore x (.text s)) c u s := by
  intro ext
  have held : c ∈ t.children p := by
    rw [list]
    exact List.mem_append_left _ (List.mem_of_getLast? last)
  have content := ext.content? c
  rw [if_pos rfl, content?_appendBefore_text (made.inside p c held),
    text?_eq_some_iff.mp text] at content
  have same : u = u ++ s := by simpa using content
  have longer := congrArg String.toList same
  rw [String.toList_append, List.self_eq_append_right, String.toList_eq_nil_iff] at longer
  exact full longer

end AppendBefore

/-- In every table that can be built text that is appended to a node goes on the text that stands
last in its list. Text that is inserted before a sibling that is no text does so exactly where it
has nothing to go on, and the node is the one that the sibling's link names and does not list the
sibling earlier. Where only the first of these fails, the text is a node of its own, and what is
written below the node is right all the same. -/
theorem text_coalesces_iff (t : Table) (reachable : t.Reachable) :
    (∀ p, t.isParent p → ∀ s, Coalesces t (t.append p (.text s)) p (t.children p) [] s) ∧
    ∀ p before x behind, t.children p = before ++ x :: behind → t.text? x = none →
      ((∀ s, Coalesces t (t.appendBefore x (.text s)) p before (x :: behind) s) ↔
        t.parent? x = some p ∧ x ∉ before ∧ ∀ c ∈ before.getLast?, t.text? c = none) ∧
      (t.parent? x = some p → x ∉ before → ∀ s,
        Adds t (t.appendBefore x (.text s)) p before (x :: behind) s ∧
          (t.appendBefore x (.text s)).textContent p =
            t.textBelow before ++ s ++ t.textBelow (x :: behind)) := by
  have made := reachable.wellMade
  refine ⟨fun p list s => reachable.coalesces_append list s, fun p before x behind list other => ?_⟩
  have adds (s : String) : Adds t (t.appendBefore x (.text s)) p before (x :: behind) s ↔ _ :=
    adds_appendBefore_iff made list
  have written {s : String} (adds : Adds t (t.appendBefore x (.text s)) p before (x :: behind) s) :=
    adds.textContent reachable.acyclic made list
  refine ⟨⟨fun coalesces => ?_, fun ⟨link, first, apart⟩ s => ?_⟩, fun link first s => ?_⟩
  · have apart : ∀ c ∈ before.getLast?, t.text? c = none := by
      intro c last
      by_contra text
      obtain ⟨u, text⟩ := Option.ne_none_iff_exists'.mp text
      exact not_extends_appendBefore made list last text (by decide)
        ((coalesces "a").merged c u last text)
    obtain ⟨link, first⟩ := (adds "a").mp ((coalesces "a").added apart)
    exact ⟨link, first, apart⟩
  · have here := (adds s).mpr ⟨link, first⟩
    refine ⟨fun c u last text => ?_, fun _ => here, written here⟩
    rw [apart c last] at text
    cases text
  · have here := (adds s).mpr ⟨link, first⟩
    exact ⟨here, written here⟩

/-- A body that holds a text, a table and another text. -/
def aroundTable : List Call :=
  [.makeElement { name := "body" }, .append 0 (.node 1), .append 1 (.text "a"),
    .makeElement { name := "table" }, .append 1 (.node 3), .append 1 (.text "b")]

theorem follows_aroundTable : Follows aroundTable := by
  refine ⟨by decide, ?_⟩
  rintro (_ | _ | _ | _ | _ | _ | n) h
  · trivial
  · exact appendable_leaf (by decide) (by decide) (by decide)
  · exact nofun
  · trivial
  · exact appendable_leaf (by decide) (by decide) (by decide)
  · exact nofun
  · exact absurd h (by simp [aroundTable])

theorem handled_aroundTable : Handled aroundTable where
  known := by decide
  textless := by decide
  grounded := by
    have allowed := follows_aroundTable.2
    rintro (_ | _ | _ | _ | _ | _ | n) h
    · trivial
    · exact fun x goes => (allowed 1 h x goes).2
    · exact nofun
    · trivial
    · exact fun x goes => (allowed 4 h x goes).2
    · exact nofun
    · exact absurd h (by simp [aroundTable])

/-- Behind the last text further text goes on it, and in front of the body it is a node of its
own. In front of the table it does not go on the first text. -/
theorem text_coalesces_iff_of_aroundTable :
    Reachable (after aroundTable 6) ∧ (after aroundTable 6).isParent 1 ∧
      (after aroundTable 6).children 0 = [] ++ 1 :: [] ∧
      (after aroundTable 6).children 1 = [2] ++ 3 :: [4] ∧
      (after aroundTable 6).text? 1 = none ∧ (after aroundTable 6).text? 3 = none ∧
      (∀ s, Coalesces (after aroundTable 6) ((after aroundTable 6).append 1 (.text s)) 1
        ((after aroundTable 6).children 1) [] s) ∧
      (∀ s, Coalesces (after aroundTable 6) ((after aroundTable 6).appendBefore 1 (.text s)) 0 []
        [1] s) ∧
      ¬ ∀ s, Coalesces (after aroundTable 6) ((after aroundTable 6).appendBefore 3 (.text s)) 1 [2]
        [3, 4] s :=
  have reachable : Reachable (after aroundTable 6) :=
    ⟨aroundTable, handled_aroundTable, 6, by decide, rfl⟩
  have ⟨appends, inserts⟩ := text_coalesces_iff (after aroundTable 6) reachable
  ⟨reachable, by decide, by decide, by decide, by decide, by decide, appends 1 (by decide),
    (inserts 0 [] 1 [] (by decide) (by decide)).1.mpr (by decide),
    fun coalesces => absurd ((inserts 1 [2] 3 [4] (by decide) (by decide)).1.mp coalesces)
      (by decide)⟩

/-- A caller who keeps to the rules gets two texts side by side: what is inserted before the
table does not go on the text in front of it. -/
theorem text_before_table_stays_apart :
    ¬ ∀ calls, Follows calls → Handled calls → ∀ p before x behind,
      (after calls calls.length).children p = before ++ x :: behind →
      ∀ s, (after calls calls.length).Insertable x (.text s) →
        Coalesces (after calls calls.length) ((after calls calls.length).appendBefore x (.text s)) p
          before (x :: behind) s := by
  intro claim
  have coalesces := claim aroundTable follows_aroundTable handled_aroundTable 1 [2] 3 [4]
    (by decide) "c" ⟨by decide, 1, by decide, nofun⟩
  have same := (coalesces.merged 2 "a" (by decide) (by decide)).children 1
  exact absurd same (by decide)

end AuthoredStyle.Dom.Table
