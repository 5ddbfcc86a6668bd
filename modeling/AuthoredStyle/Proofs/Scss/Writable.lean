import AuthoredStyle.Proofs.Scss.Lines

/-!
# Nodes that can be written and read

A node is writable when its short selector is a tag, a class, both or an id, its
pseudo-elements are the two boxes, its breakpoints have names, and all its styles are
of known properties with neutral values. The blocks of such a node read as the rules
of its own styles and of its boxes; what is written for breakpoints and hovering is
written as mixins and does not come back.
-/

namespace AuthoredStyle

open Sheet
open Text (Solid)

/-- ASCII letters, digits, hyphens and underscores. -/
def IsName (s : List Char) : Prop := s ≠ [] ∧ ∀ c ∈ s, c.isAlphanum = true ∨ c ∈ ['-', '_']

instance : DecidablePred IsName := fun s =>
  decidable_of_iff (s.isEmpty = false ∧ s.all (fun c => c.isAlphanum || c ∈ ['-', '_']) = true)
    (by simp [IsName])

inductive IsShortSelector : List Char → Prop where
  | tag {t : List Char} (ht : IsName t) : IsShortSelector t
  | ofClass {c : List Char} (hc : IsName c) : IsShortSelector ('.' :: c)
  | tagClass {t c : List Char} (ht : IsName t) (hc : IsName c) : IsShortSelector (t ++ '.' :: c)
  | id {i : List Char} (hi : IsName i) : IsShortSelector ('#' :: i)

structure StyleNode.IsWritable (n : StyleNode) : Prop where
  selector : IsShortSelector n.selector.toList
  styles : Scss.IsWritable n.styles
  boxes : ∀ e ∈ n.pseudo.entries, ∃ element : PseudoElement, e.1 = element.text
  pseudo : ∀ e ∈ n.pseudo.entries, Scss.IsWritable e.2
  breakpoints : ∀ e ∈ n.media.entries, IsName e.1.toList
  media : ∀ e ∈ n.media.entries, Scss.IsWritable e.2
  hover : Scss.IsWritable n.hover

theorem IsName.isPathWord {s : List Char} (h : IsName s) : IsPathWord s := by
  refine ⟨h.1, fun c hc => ?_⟩
  rcases h.2 c hc with letter | mark
  · exact .inl letter
  · refine .inr ?_
    simp only [List.mem_cons, List.not_mem_nil, or_false] at mark ⊢
    rcases mark with rfl | rfl <;> simp

theorem IsShortSelector.isPathWord {s : List Char} (h : IsShortSelector s) : IsPathWord s := by
  have marked {m : Char} {name : List Char} (hm : IsPathChar m) (hn : IsName name) :
      IsPathWord (m :: name) := by
    refine ⟨List.cons_ne_nil m name, fun c hc => ?_⟩
    rcases List.mem_cons.mp hc with rfl | hc
    · exact hm
    · exact hn.isPathWord.2 c hc
  cases h with
  | tag ht => exact ht.isPathWord
  | ofClass hc => exact marked (by decide) hc
  | id hi => exact marked (by decide) hi
  | tagClass ht hc =>
    refine ⟨by simp, fun c h => ?_⟩
    rcases List.mem_append.mp h with h | h
    · exact ht.isPathWord.2 c h
    · exact (marked (by decide) hc).2 c h

namespace Scss

variable {file : String} {o : Options} {words : List (List Char)} {s : Styles}

section Rules

theorem readBackAll_isEmpty : (readBackAll o s).entries.isEmpty = s.isEmpty := by
  simp [readBackAll, Dict.isEmpty]

theorem ofList_keys_readBackAll :
    NameSet.ofList ((readBackAll o s).entries.map (·.1)) = s.keys := by
  rw [map_fst_readBackAll]
  exact NameSet.ofList_toList s.keys

/-- One selector's rules are those of its declarations, if there are any. -/
theorem rulesSaid_single (selector : List Char) (hs : IsWritable s) :
    rulesSaid [selector] (said o s) file =
      if s.isEmpty then ∅ else ruleOf selector (readBackAll o s).entries file := by
  rw [rulesSaid, declarations_said hs, readBackAll_isEmpty]
  simp

theorem rulesSaid_path (named : words ≠ []) (hw : ∀ w ∈ words, IsPathWord w)
    (hs : IsWritable s) :
    rulesSaid (under words) (said o s) file =
      if s.isEmpty ∨ ¬ NamesClassOrId (spaced words) then ∅
      else { plain := [⟨.ofList (spaced words), s.keys, file⟩] } := by
  have one : under words = [spaced words] := by simp [under, named]
  rw [one, rulesSaid_single _ hs, ruleOf_spaced hw named, ofList_keys_readBackAll]
  by_cases empty : s.isEmpty = true
  · simp [empty]
  · by_cases names : NamesClassOrId (spaced words) <;> simp [empty, names]

theorem rulesSaid_element (named : words ≠ []) (hw : ∀ w ∈ words, IsPathWord w)
    (element : PseudoElement) (hs : IsWritable s) :
    rulesSaid [spaced words ++ element.text.toList] (said o s) file =
      if s.isEmpty ∨ ¬ NamesClassOrId (spaced words) then ∅
      else { pseudo := [⟨.ofList (spaced words), element, readBackAll o s⟩] } := by
  rw [rulesSaid_single _ hs, ruleOf_element hw named, Dict.ofList_entries]
  by_cases empty : s.isEmpty = true
  · simp [empty]
  · by_cases names : NamesClassOrId (spaced words) <;> simp [empty, names]

end Rules

section Side

/-- A block of the element's box gives its rule, and no block is written without styles. -/
theorem blocksRead_box (named : words ≠ []) (level : Nat) (element : PseudoElement)
    (hs : IsWritable s) :
    BlocksRead file (under words) (block o level ("&" ++ element.text) s)
      (rulesSaid [spaced words ++ element.text.toList] (said o s) file) := by
  have head : ("&" ++ element.text).toList = '&' :: element.text.toList := by simp
  have solid : Solid ('&' :: element.text.toList) := by
    cases element <;> decide
  have selectors : nest (under words) (selectorList ("&" ++ element.text).toList) =
      [spaced words ++ element.text.toList] := by
    have comma : ',' ∉ '&' :: element.text.toList := by cases element <;> decide
    have ampersand : '&' ∉ element.text.toList := by cases element <;> decide
    rw [head, selectorList_solid solid comma, nest_ampersand named ampersand]
  rw [block]
  split
  · rename_i empty
    rw [rulesSaid_single _ hs, if_pos empty]
    exact .nil
  · have passes : PassesOver ("&" ++ element.text).toList := by
      rw [head]
      exact passesOver_of_all (by cases element <;> decide)
    have style : isAtRule ("&" ++ element.text).toList = false := by
      rw [head]
      rfl
    have inner : Reads file (nest (under words) (selectorList ("&" ++ element.text).toList))
        (textOf (declarations o (level + 1) s)) (said o s) ∅ := reads_declarations hs (level + 1)
    have read := reads_opened level passes (head ▸ Text.trim_solid solid) style inner
    rw [selectors, RuleSet.append_empty] at read
    exact .single read

theorem blocksRead_mixin {head : String} (level : Nat) (passes : PassesOver head.toList)
    (trimmed : Text.trim head.toList = head.toList) (at' : isAtRule head.toList = true)
    (hs : IsWritable s) :
    BlocksRead file (under words) (block o level head s) ∅ := by
  rw [block]
  split
  · exact .nil
  · have inner : Reads file [] (textOf (declarations o (level + 1) s)) (said o s) ∅ :=
      reads_declarations hs (level + 1)
    exact .single (reads_mixin level passes trimmed at' inner)

theorem mixin_name {name : String} (h : IsName name.toList) :
    PassesOver ("@include " ++ name).toList ∧
      Text.trim ("@include " ++ name).toList = ("@include " ++ name).toList ∧
      isAtRule ("@include " ++ name).toList = true := by
  have word := h.isPathWord
  have split : ("@include " ++ name).toList = [' '].intercalate ["@include".toList, name.toList] := by
    rw [List.intercalate_cons_cons, List.intercalate_singleton, String.toList_append]
    rfl
  refine ⟨?_, ?_, ?_⟩
  · have lead : PassesOver "@include ".toList := passesOver_of_all (by decide)
    rw [String.toList_append]
    exact lead.append word.passesOver
  · rw [split]
    refine Text.trim_spaced fun w hw => ?_
    rcases List.mem_cons.mp hw with rfl | hw
    · exact (by decide : Solid "@include".toList)
    · exact List.mem_singleton.mp hw ▸ word.solid
  · rw [String.toList_append]
    rfl

theorem mixin_hover :
    PassesOver "@include hover()".toList ∧
      Text.trim "@include hover()".toList = "@include hover()".toList ∧
      isAtRule "@include hover()".toList = true := by
  have lead : PassesOver "@include hover".toList := passesOver_of_all (by decide)
  have parens : PassesOver ['(', ')'] :=
    passesOver_parens fun c hc => absurd hc List.not_mem_nil
  refine ⟨lead.append parens, by decide +kernel, by decide⟩

variable {media pseudo : GroupedStyles}

theorem blocksRead_media (level : Nat) (names : ∀ e ∈ media.entries, IsName e.1.toList)
    (writable : ∀ e ∈ media.entries, IsWritable e.2) :
    BlocksRead file (under words)
      (media.entries.flatMap fun e => block o level ("@include " ++ e.1) e.2) ∅ := by
  generalize media.entries = es at names writable
  induction es with
  | nil => exact .nil
  | cons e es ih =>
    obtain ⟨passes, trimmed, at'⟩ := mixin_name (names e List.mem_cons_self)
    have first : BlocksRead file (under words) (block o level ("@include " ++ e.1) e.2) ∅ :=
      blocksRead_mixin level passes trimmed at' (writable e List.mem_cons_self)
    have later := ih (fun d hd => names d (List.mem_cons_of_mem e hd))
      fun d hd => writable d (List.mem_cons_of_mem e hd)
    exact first.append later

/-- The entries of the two boxes, in the order they are kept in. -/
theorem entries_of_boxes (boxes : ∀ e ∈ pseudo.entries, ∃ element : PseudoElement,
    e.1 = element.text) :
    pseudo.entries =
      ((pseudo.get? PseudoElement.after.text).map (PseudoElement.after.text, ·)).toList ++
        ((pseudo.get? PseudoElement.before.text).map (PseudoElement.before.text, ·)).toList := by
  have order : PseudoElement.after.text < PseudoElement.before.text := by decide
  have distinct : PseudoElement.before.text ≠ PseudoElement.after.text := by decide
  refine Dict.eq_of_increasing pseudo.increasing ?_ fun k => ?_
  · cases pseudo.get? PseudoElement.after.text with
    | none =>
      cases pseudo.get? PseudoElement.before.text with
      | none => exact .nil
      | some before => exact List.pairwise_singleton _ _
    | some after =>
      cases pseudo.get? PseudoElement.before.text with
      | none => exact List.pairwise_singleton _ _
      | some before => exact List.pairwise_pair.mpr order
  · change pseudo.get? k = _
    by_cases known : k = PseudoElement.after.text ∨ k = PseudoElement.before.text
    · rcases known with rfl | rfl
      · cases pseudo.get? PseudoElement.after.text <;>
          cases pseudo.get? PseudoElement.before.text <;> simp [Dict.valueIn, distinct.symm]
      · cases pseudo.get? PseudoElement.after.text <;>
          cases pseudo.get? PseudoElement.before.text <;> simp [Dict.valueIn, distinct]
    · obtain ⟨notAfter, notBefore⟩ := not_or.mp known
      have absent : pseudo.get? k = none := by
        cases found : pseudo.get? k with
        | none => rfl
        | some v =>
          obtain ⟨element, rfl⟩ := boxes (k, v) (Dict.get?_eq_some_iff.mp found)
          cases element with
          | after => exact absurd rfl notAfter
          | before => exact absurd rfl notBefore
      rw [absent]
      cases pseudo.get? PseudoElement.after.text <;>
        cases pseudo.get? PseudoElement.before.text <;> simp [Dict.valueIn, notAfter, notBefore]

/-- The rule that comes back for one box of the element at a path. -/
def boxRule? (o : Options) (path : String) (element : PseudoElement) (found : Option Styles) :
    Option PseudoRule :=
  found.bind fun s =>
    if s.isEmpty ∨ ¬ NamesClassOrId path.toList then none
    else some ⟨path, element, readBackAll o s⟩

def boxRules (o : Options) (path : String) (pseudo : GroupedStyles) : List PseudoRule :=
  [PseudoElement.after, .before].filterMap fun element =>
    boxRule? o path element (pseudo.get? element.text)

theorem blocksRead_found (named : words ≠ []) (hw : ∀ w ∈ words, IsPathWord w) (level : Nat)
    (element : PseudoElement) {found : Option Styles} (writable : ∀ s ∈ found, IsWritable s) :
    BlocksRead file (under words)
      ((found.map (element.text, ·)).toList.flatMap fun e => block o level ("&" ++ e.1) e.2)
      { pseudo := (boxRule? o (.ofList (spaced words)) element found).toList } := by
  cases found with
  | none =>
    have nothing : boxRule? o (.ofList (spaced words)) element none = none := by simp [boxRule?]
    rw [nothing]
    exact .nil
  | some s =>
    have hs := writable s rfl
    have read : BlocksRead file (under words) (block o level ("&" ++ element.text) s) _ :=
      blocksRead_box named level element hs
    have gives : rulesSaid [spaced words ++ element.text.toList] (said o s) file =
        { pseudo := (boxRule? o (.ofList (spaced words)) element (some s)).toList } := by
      rw [rulesSaid_element named hw element hs, boxRule?, Option.bind_some, String.toList_ofList]
      split <;> rfl
    rw [gives] at read
    simpa using read

theorem toList_boxRules (path : String) :
    boxRules o path pseudo =
      (boxRule? o path .after (pseudo.get? PseudoElement.after.text)).toList ++
        (boxRule? o path .before (pseudo.get? PseudoElement.before.text)).toList := by
  rw [boxRules, List.filterMap_cons, List.filterMap_cons, List.filterMap_nil]
  cases boxRule? o path .after (pseudo.get? PseudoElement.after.text) <;>
    cases boxRule? o path .before (pseudo.get? PseudoElement.before.text) <;> rfl

theorem blocksRead_boxes (named : words ≠ []) (hw : ∀ w ∈ words, IsPathWord w) (level : Nat)
    (boxes : ∀ e ∈ pseudo.entries, ∃ element : PseudoElement, e.1 = element.text)
    (writable : ∀ e ∈ pseudo.entries, IsWritable e.2) :
    BlocksRead file (under words)
      (pseudo.entries.flatMap fun e => block o level ("&" ++ e.1) e.2)
      { pseudo := boxRules o (.ofList (spaced words)) pseudo } := by
  have found (element : PseudoElement) : ∀ s ∈ pseudo.get? element.text, IsWritable s :=
    fun s hs => writable (element.text, s) (Dict.get?_eq_some_iff.mp hs)
  rw [entries_of_boxes boxes, List.flatMap_append, toList_boxRules]
  exact (blocksRead_found named hw level .after (found .after)).append
    (blocksRead_found named hw level .before (found .before))

/-- Of the blocks that are not children, only those of boxes come back. -/
theorem blocksRead_side {n : StyleNode} (writable : n.IsWritable) (named : words ≠ [])
    (hw : ∀ w ∈ words, IsPathWord w) (level : Nat) :
    BlocksRead file (under words) (sideBlocks o level n.pseudo n.media n.hover)
      { pseudo := boxRules o (.ofList (spaced words)) n.pseudo } := by
  have boxes : BlocksRead file (under words)
      (n.pseudo.entries.flatMap fun e => block o level ("&" ++ e.1) e.2)
      { pseudo := boxRules o (.ofList (spaced words)) n.pseudo } :=
    blocksRead_boxes named hw level writable.boxes writable.pseudo
  have media : BlocksRead file (under words)
      (if o.media then n.media.entries.flatMap fun e => block o level ("@include " ++ e.1) e.2
        else []) ∅ := by
    split
    · exact blocksRead_media level writable.breakpoints writable.media
    · exact .nil
  have hover : BlocksRead file (under words)
      (if o.hover then block o level "@include hover()" n.hover else []) ∅ := by
    split
    · obtain ⟨passes, trimmed, at'⟩ := mixin_hover
      exact blocksRead_mixin level passes trimmed at' writable.hover
    · exact .nil
  have all := (boxes.append media).append hover
  rwa [RuleSet.append_empty, RuleSet.append_empty] at all

end Side

end Scss

end AuthoredStyle
