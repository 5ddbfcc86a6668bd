import AuthoredStyle.SourceMap.Authored
import AuthoredStyle.Proofs.Scss.Lines
import AuthoredStyle.Proofs.Text.Collapse

/-!
# The properties that written SCSS declares

A source is searched for declarations line by line. What is written for a tree is lines of
a few kinds: a line that opens a block never counts, whatever stands in its selector, as
it ends in a brace; lines without a colon never count; and a declaration counts with its
name, whatever its value. So the names found are those of the declarations written, node
by node, less the font sizes that became mixin calls.

No line break may stand inside a line, and names are those of the table; nothing else is
asked of selectors, groups and values.
-/

namespace AuthoredStyle

open SourceMap
open Text (Solid)

/-! ## Single lines -/

namespace SourceMap

theorem declaredName?_of_no_colon {line : List Char} (h : ':' ∉ line) :
    declaredName? line = none := by
  have absent : ':' ∉ Text.trim line := fun found => h ((Text.trim_sublist line).subset found)
  rw [declaredName?, Text.cut?_absent absent]
  split <;> rfl

/-- A line that opens a block declares nothing, even with a colon in its selector: what
stands behind the colon ends in the brace. -/
theorem declaredName?_opening (s : List Char) : declaredName? (s ++ ['\x7b']) = none := by
  have brace : Text.isBlank '\x7b' = false := rfl
  obtain ⟨t, trimmed⟩ := Text.exists_trim_snoc s brace
  rw [declaredName?, trimmed]
  split
  · rfl
  · cases found : Text.cut? [':'] (t ++ ['\x7b']) with
    | none => rfl
    | some parts =>
      obtain ⟨name, value⟩ := parts
      have whole := Text.eq_of_cut? found
      have ends : value.getLast? = some '\x7b' := by
        have last := congrArg List.getLast? whole
        rw [List.getLast?_append_of_ne_nil _ (List.cons_ne_nil _ _)] at last
        cases value with
        | nil => simp at last
        | cons c rest => simpa using last.symm
      obtain ⟨init, rfl⟩ := List.getLast?_eq_some_iff.mp ends
      obtain ⟨u, visible⟩ := Text.exists_trim_snoc init brace
      simp [visible]

/-- The names of the table are names as a source has them, and direct nothing. -/
theorem important_named : ∀ p ∈ Property.important,
    p.toList.head?.any isNameStart = true ∧ p.toList.all isNameChar = true ∧ p ∉ directives := by
  have apart : ∀ p ∈ Property.important, p ∉ directives := by decide +kernel
  intro p hp
  obtain ⟨some, letters⟩ := Property.important_letters hp
  have starts (c : Char) (hc : c ∈ p.toList) : isNameStart c = true := by
    rcases letters c hc with small | rfl
    · rw [isNameStart, isAlpha_of_isLower small, Bool.true_or]
    · rfl
  refine ⟨?_, List.all_eq_true.mpr fun c hc => ?_, apart p hp⟩
  · obtain ⟨c, rest, word⟩ := List.exists_cons_of_ne_nil some
    rw [word]
    exact starts c (word ▸ List.mem_cons_self)
  · have start := starts c hc
    simp only [isNameStart, Bool.or_eq_true, decide_eq_true_eq] at start
    simp only [isNameChar, Char.isAlphanum, Bool.or_eq_true, decide_eq_true_eq]
    exact start.imp_left .inl

theorem declaredName?_declaration {margin value : List Char} {p : String}
    (known : Property.isImportant p = true) (blank : Text.Blank (' ' :: ' ' :: margin)) :
    declaredName? (' ' :: ' ' :: margin ++ (p.toList ++ ':' :: ' ' :: value) ++ [';']) =
      some p := by
  have word := Property.isPathWord_of_isImportant known
  have colon : ':' ∉ p.toList := word.not_mem (by decide)
  have semicolon : Text.isBlank ';' = false := rfl
  have trimmed : Text.trim (' ' :: ' ' :: margin ++ (p.toList ++ ':' :: ' ' :: value) ++ [';']) =
      p.toList ++ ':' :: (' ' :: value ++ [';']) := by
    have kept : Text.trimEnd (':' :: ' ' :: value ++ [';']) = ':' :: ' ' :: value ++ [';'] :=
      Text.trimEnd_snoc_visible _ semicolon
    rw [List.append_assoc, Text.trim_blank_append _ blank, List.append_assoc,
      Text.trim_append _ word.solid, kept]
    rfl
  obtain ⟨u, said⟩ := Text.exists_trim_snoc (' ' :: value) semicolon
  rw [List.cons_append] at said
  have named := important_named p (List.contains_iff_mem.mp known)
  rw [declaredName?, trimmed, Text.cut?_first _ colon]
  simp [isIndented, Text.trim_solid word.solid, Property.lower_of_isImportant known, said, named,
    known]

end SourceMap

namespace Scss

variable {o : Options}

theorem toList_indent_succ (level : Nat) :
    (Line.indent (level + 1)).toList = ' ' :: ' ' :: (Line.indent level).toList := by
  simp [Line.indent, Nat.mul_succ, List.replicate_succ]

theorem newline_not_mem_indent (level : Nat) : '\n' ∉ (Line.indent level).toList := by
  rw [Line.indent, String.toList_ofList]
  intro found
  exact absurd (List.eq_of_mem_replicate found) (by decide)

/-! ## Several lines -/

def nameIn? (l : Line) : Option String := declaredName? l.text.toList

/-- No line is broken, and the lines, read as a source, declare the names in this order. -/
structure Declares (ls : List Line) (names : List String) : Prop where
  unbroken : ∀ l ∈ ls, '\n' ∉ l.text.toList
  names : ls.filterMap nameIn? = names

theorem Declares.nil : Declares [] [] := ⟨fun _ h => absurd h List.not_mem_nil, rfl⟩

theorem Declares.append {a b : List Line} {x y : List String} (ha : Declares a x) (hb : Declares b y) :
    Declares (a ++ b) (x ++ y) where
  unbroken := List.forall_mem_append.mpr ⟨ha.unbroken, hb.unbroken⟩
  names := by rw [List.filterMap_append, ha.names, hb.names]

theorem declares_silent {l : Line} (unbroken : '\n' ∉ l.text.toList)
    (silent : nameIn? l = none) : Declares [l] [] where
  unbroken := List.forall_mem_singleton.mpr unbroken
  names := by rw [List.filterMap_cons_none silent, List.filterMap_nil]

theorem declares_blank : Declares [.blank] [] := declares_silent List.not_mem_nil rfl

theorem declares_opening (level : Nat) {head : String} (h : '\n' ∉ head.toList) :
    Declares [.opening level head] [] := by
  have text : (Line.opening level head).text.toList =
      (Line.indent level).toList ++ head.toList ++ [' '] ++ ['\x7b'] := by
    simp [Line.text]
  refine declares_silent ?_ ?_
  · rw [text]
    simp [newline_not_mem_indent, h]
  · rw [nameIn?, text]
    exact declaredName?_opening _

theorem declares_closing (level : Nat) : Declares [.closing level] [] := by
  have text : (Line.closing level).text.toList = (Line.indent level).toList ++ ['\x7d'] := by
    simp [Line.text]
  refine declares_silent ?_ (declaredName?_of_no_colon ?_)
  · rw [text]
    simp [newline_not_mem_indent]
  · rw [text]
    intro found
    rcases List.mem_append.mp found with found | found
    · exact absurd (blank_indent level _ found) (by decide)
    · exact absurd found (by decide)

/-- The names that a block of styles declares: a font size does not show in a mixin call. -/
def declared (o : Options) (s : Styles) : List String :=
  (s.entries.filter fun e => (calledWith? o e.1 e.2).isNone).map (·.1)

/-- Properties of the table with values on one line. -/
def IsOneLined (s : Styles) : Prop :=
  ∀ e ∈ s.entries, Property.isImportant e.1 = true ∧ '\n' ∉ e.2.toList

instance (s : Styles) : Decidable (IsOneLined s) :=
  inferInstanceAs (Decidable (∀ e ∈ s.entries, _))

theorem declares_declaration (level : Nat) {e : String × String}
    (known : Property.isImportant e.1 = true) (oneLined : '\n' ∉ e.2.toList) :
    Declares [.statement (level + 1) (declaration o e.1 e.2)]
      (if (calledWith? o e.1 e.2).isNone then [e.1] else []) := by
  have text : (Line.statement (level + 1) (declaration o e.1 e.2)).text.toList =
      (Line.indent (level + 1)).toList ++ (declaration o e.1 e.2).toList ++ [';'] := by
    simp [Line.text]
  have margin := newline_not_mem_indent (level + 1)
  cases call : calledWith? o e.1 e.2 with
  | some size =>
    have word := (of_calledWith? call).2
    have said := (congrArg String.toList (declaration_call call)).trans (toList_call size)
    refine declares_silent ?_ (declaredName?_of_no_colon ?_)
    · have absent : '\n' ∉ size.toList := word.not_mem (by decide)
      have absent' : '\n' ∉ Sheet.fontSizeCall := by decide +kernel
      rw [text, said]
      simp [margin, absent, absent']
    · have blank : ':' ∉ (Line.indent (level + 1)).toList := fun found =>
        absurd (blank_indent (level + 1) _ found) (by decide)
      have absent : ':' ∉ size.toList := word.not_mem (by decide)
      have absent' : ':' ∉ Sheet.fontSizeCall := by decide +kernel
      rw [text, said]
      simp [blank, absent, absent']
  | none =>
    have said := toList_declaration_plain call
    have name : nameIn? (.statement (level + 1) (declaration o e.1 e.2)) = some e.1 := by
      have blank := blank_indent (level + 1)
      rw [toList_indent_succ] at blank
      rw [nameIn?, text, said, toList_indent_succ]
      exact declaredName?_declaration known blank
    refine ⟨List.forall_mem_singleton.mpr ?_, ?_⟩
    · have absent : '\n' ∉ e.1.toList :=
        (Property.isPathWord_of_isImportant known).not_mem (by decide)
      rw [text, said]
      simp [margin, absent, oneLined]
    · rw [List.filterMap_cons_some name]
      rfl

theorem declares_declarations (level : Nat) {s : Styles} (hs : IsOneLined s) :
    Declares (declarations o (level + 1) s) (declared o s) := by
  rw [declarations, declared]
  rw [IsOneLined] at hs
  generalize s.entries = es at hs ⊢
  induction es with
  | nil => exact .nil
  | cons e es ih =>
    obtain ⟨⟨known, oneLined⟩, later⟩ := List.forall_mem_cons.mp hs
    have both := (declares_declaration (o := o) level known oneLined).append (ih later)
    rw [List.map_cons, ← List.singleton_append, List.filter_cons]
    split at both
    · rename_i here
      rwa [if_pos here, List.map_cons]
    · rename_i gone
      rwa [if_neg gone]

/-! ## Blocks and trees -/

/-- Gaps between blocks declare nothing. -/
theorem Declares.behind {bs : List (List Line)} {written : List Line} {x y : List String}
    (start : Declares written x) (blocks : Declares bs.flatten y) :
    Declares (bs.foldl Scss.behind written) (x ++ y) := by
  induction bs generalizing written x y with
  | nil => simpa using start.append blocks
  | cons b bs ih =>
    obtain ⟨unbroken, names⟩ := blocks
    rw [List.flatten_cons] at unbroken names
    rw [List.filterMap_append] at names
    obtain ⟨here, later⟩ := List.forall_mem_append.mp unbroken
    have first : Declares b (b.filterMap nameIn?) := ⟨here, rfl⟩
    have rest : Declares bs.flatten (bs.flatten.filterMap nameIn?) := ⟨later, rfl⟩
    have next : Declares (Scss.behind written b) (x ++ b.filterMap nameIn?) := by
      rw [Scss.behind]
      split
      · exact start.append first
      · exact start.append (declares_blank.append first)
    rw [List.foldl_cons, ← names, ← List.append_assoc]
    exact ih next rest

theorem declares_block (level : Nat) {head : String} {s : Styles} (h : '\n' ∉ head.toList)
    (hs : IsOneLined s) : Declares (block o level head s).flatten (declared o s) := by
  rw [block]
  split
  · rename_i empty
    have none : declared o s = [] := by
      rw [declared, List.isEmpty_iff.mp empty]
      rfl
    rw [none]
    exact .nil
  · have inner := (declares_declarations (o := o) level hs).append (declares_closing level)
    simpa using (declares_opening level h).append inner

theorem declares_blocks (level : Nat) {lead : String} {groups : List (String × Styles)}
    (hl : '\n' ∉ lead.toList)
    (h : ∀ e ∈ groups, '\n' ∉ e.1.toList ∧ IsOneLined e.2) :
    Declares (groups.flatMap fun e => block o level (lead ++ e.1) e.2).flatten
      ((groups.map (·.2)).flatMap (declared o)) := by
  induction groups with
  | nil => exact .nil
  | cons e groups ih =>
    obtain ⟨⟨name, styles⟩, later⟩ := List.forall_mem_cons.mp h
    have head : '\n' ∉ (lead ++ e.1).toList := by simp [hl, name]
    rw [List.flatMap_cons, List.flatten_append, List.map_cons, List.flatMap_cons]
    exact (declares_block level head styles).append (ih later)

end Scss

/-- No line break stands in a selector, a group's name or a value, and all properties are
of the table. -/
structure StyleNode.IsOneLined (n : StyleNode) : Prop where
  selector : '\n' ∉ n.selector.toList
  styles : Scss.IsOneLined n.styles
  pseudo : ∀ e ∈ n.pseudo.entries, '\n' ∉ e.1.toList ∧ Scss.IsOneLined e.2
  media : ∀ e ∈ n.media.entries, '\n' ∉ e.1.toList ∧ Scss.IsOneLined e.2
  hover : Scss.IsOneLined n.hover

instance (n : StyleNode) : Decidable n.IsOneLined :=
  decidable_of_iff
    ('\n' ∉ n.selector.toList ∧ Scss.IsOneLined n.styles ∧
      (∀ e ∈ n.pseudo.entries, '\n' ∉ e.1.toList ∧ Scss.IsOneLined e.2) ∧
      (∀ e ∈ n.media.entries, '\n' ∉ e.1.toList ∧ Scss.IsOneLined e.2) ∧ Scss.IsOneLined n.hover)
    ⟨fun ⟨selector, styles, pseudo, media, hover⟩ => ⟨selector, styles, pseudo, media, hover⟩,
      fun h => ⟨h.selector, h.styles, h.pseudo, h.media, h.hover⟩⟩

/-- All styles of a node that are written with the options. -/
def StyleNode.written (o : Scss.Options) (n : StyleNode) : List Styles :=
  n.styles :: (n.pseudo.values ++ (if o.media then n.media.values else []) ++
    (if o.hover then [n.hover] else []))

namespace Scss

variable {o : Options}

theorem declares_sideBlocks (level : Nat) {n : StyleNode} (h : n.IsOneLined) :
    Declares (sideBlocks o level n.pseudo n.media n.hover).flatten
      ((n.pseudo.values ++ (if o.media then n.media.values else []) ++
        (if o.hover then [n.hover] else [])).flatMap (declared o)) := by
  have media : Declares (if o.media then
      n.media.entries.flatMap fun e => block o level ("@include " ++ e.1) e.2 else []).flatten
      ((if o.media then n.media.values else []).flatMap (declared o)) := by
    split
    · exact declares_blocks level (by decide) h.media
    · exact .nil
  have hover : Declares (if o.hover then block o level "@include hover()" n.hover else []).flatten
      ((if o.hover then [n.hover] else []).flatMap (declared o)) := by
    split
    · rw [List.flatMap_singleton]
      exact declares_block level (by decide) h.hover
    · exact .nil
  rw [sideBlocks, List.flatten_append, List.flatten_append, List.flatMap_append,
    List.flatMap_append]
  exact ((declares_blocks level (by decide) h.pseudo).append media).append hover

theorem declares_node (level : Nat) {n : StyleNode} {below : List String} (h : n.IsOneLined)
    (children : Declares (childBlocks o (level + 1) n.children).flatten below) :
    Declares (lines o level n) ((n.written o).flatMap (declared o) ++ below) := by
  have own := (declares_opening level h.selector).append (declares_declarations (o := o) level h.styles)
  have blocks := (declares_sideBlocks (o := o) (level + 1) h).append children
  rw [← List.flatten_append] at blocks
  have whole := (own.behind blocks).append (declares_closing level)
  rw [lines_eq, StyleNode.written, List.flatMap_cons]
  simpa using whole

-- On the tree and its lists of children at once, as the lines are written.
mutual

theorem declares_lines (o : Options) (n : StyleNode) (h : ∀ m ∈ n.nodes, m.IsOneLined)
    (level : Nat) :
    Declares (lines o level n) (n.nodes.flatMap fun m => (m.written o).flatMap (declared o)) := by
  match n with
  | ⟨selector, path, tag, id, classes, styles, pseudo, media, hover, children, depth⟩ =>
    rw [StyleNode.nodes_eq] at h ⊢
    obtain ⟨own, below⟩ := List.forall_mem_cons.mp h
    rw [List.flatMap_cons]
    exact declares_node level own (declares_childBlocks o children below (level + 1))

theorem declares_childBlocks (o : Options) (ns : List StyleNode)
    (h : ∀ m ∈ StyleNode.nodesBelow ns, m.IsOneLined) (level : Nat) :
    Declares (childBlocks o level ns).flatten
      ((StyleNode.nodesBelow ns).flatMap fun m => (m.written o).flatMap (declared o)) := by
  match ns with
  | [] =>
    rw [childBlocks, StyleNode.nodesBelow]
    exact .nil
  | n :: ns =>
    rw [StyleNode.nodesBelow] at h ⊢
    obtain ⟨here, others⟩ := List.forall_mem_append.mp h
    have first := (declares_lines o n here level).append declares_blank
    have whole := first.append (declares_childBlocks o ns others level)
    rw [childBlocks, List.flatten_cons, List.flatMap_append]
    rwa [List.append_nil] at whole

end

theorem fields_textOf {ls : List Line} (unbroken : ∀ l ∈ ls, '\n' ∉ l.text.toList) :
    Text.fields (· = '\n') (textOf ls) = ls.map (fun l => l.text.toList) ++ [[]] := by
  induction ls with
  | nil => rfl
  | cons l ls ih =>
    obtain ⟨here, later⟩ := List.forall_mem_cons.mp unbroken
    have whole : Text.fields (· = '\n') l.text.toList = [l.text.toList] :=
      Text.fields_of_none fun c hc => decide_eq_false fun newline => here (newline ▸ hc)
    rw [textOf_cons, Text.fields_append_separator _ _ (decide_eq_true rfl), whole, ih later]
    rfl

/-- The names found in the text are those that its lines declare. -/
theorem authoredProperties_serialize {tree : StyleNode} {names : List String}
    (known : Declares (lines o 0 tree) names) :
    authoredProperties (serialize o tree) = .ofList names := by
  have empty : declaredName? [] = none := rfl
  rw [authoredProperties, toList_serialize, fields_textOf known.unbroken, List.filterMap_append,
    List.filterMap_map, List.filterMap_cons_none empty, ← known.names]
  simp only [List.filterMap_nil, List.append_nil]
  rfl

theorem calledWith?_eq_none_iff {property value : String} :
    calledWith? o property value = none ↔
      ¬ (o.fontSize = true ∧ property = "font-size" ∧ (fontSizeArgument? value).isSome) := by
  rw [calledWith?]
  split
  · rename_i asked
    rw [Bool.and_eq_true, decide_eq_true_eq] at asked
    simp [asked]
  · rename_i other
    rw [Bool.and_eq_true, decide_eq_true_eq] at other
    refine ⟨fun _ => ?_, fun _ => rfl⟩
    rintro ⟨asked, size, -⟩
    exact other ⟨asked, size⟩

theorem mem_declared_iff {s : Styles} {p : String} :
    p ∈ declared o s ↔ ∃ value, s.get? p = some value ∧
      ¬ (o.fontSize = true ∧ p = "font-size" ∧ (fontSizeArgument? value).isSome) := by
  simp only [declared, List.mem_map, List.mem_filter, Option.isNone_iff_eq_none,
    calledWith?_eq_none_iff, Dict.get?_eq_some_iff]
  constructor
  · rintro ⟨⟨p, value⟩, ⟨entry, plain⟩, rfl⟩
    exact ⟨value, entry, plain⟩
  · rintro ⟨value, entry, plain⟩
    exact ⟨(p, value), ⟨entry, plain⟩, rfl⟩

/-- A written tree declares the properties that are written for its nodes, and no others;
a font size counts unless it is written as a mixin call. -/
theorem serialize_declares_written_names (o : Options) (tree : StyleNode)
    (oneLined : ∀ n ∈ tree.nodes, n.IsOneLined) (p : String) :
    p ∈ authoredProperties (serialize o tree) ↔
      ∃ n ∈ tree.nodes, ∃ s ∈ n.written o, ∃ value, s.get? p = some value ∧
        ¬ (o.fontSize = true ∧ p = "font-size" ∧ (fontSizeArgument? value).isSome) := by
  rw [authoredProperties_serialize (declares_lines o tree oneLined 0), NameSet.mem_ofList]
  simp only [List.mem_flatMap, mem_declared_iff]

/-! ## A link with a colon in its selector and a brace in a value -/

def link : StyleNode where
  selector := "a:hover"
  styles := .ofList [("content", "\x7b"), ("font-size", "16px")]
  children := [{
    selector := "b"
    media := (∅ : GroupedStyles).insert "sp" (.ofList [("width", "1px")]) }]

theorem serialize_declares_written_names_of_link :
    (∀ n ∈ link.nodes, n.IsOneLined) ∧
      "content" ∈ authoredProperties (serialize {} link) ∧
      "width" ∈ authoredProperties (serialize {} link) ∧
      "width" ∉ authoredProperties (serialize { media := false } link) ∧
      "font-size" ∉ authoredProperties (serialize {} link) := by
  have oneLined : ∀ n ∈ link.nodes, n.IsOneLined := by decide +kernel
  have names (o : Options) (p : String) : p ∈ authoredProperties (serialize o link) ↔
      p ∈ link.nodes.flatMap fun m => (m.written o).flatMap (declared o) := by
    simp only [serialize_declares_written_names o link oneLined p, List.mem_flatMap,
      mem_declared_iff]
  exact ⟨oneLined, (names _ _).mpr (by decide +kernel), (names _ _).mpr (by decide +kernel),
    mt (names _ _).mp (by decide +kernel), mt (names _ _).mp (by decide +kernel)⟩

end Scss

end AuthoredStyle
