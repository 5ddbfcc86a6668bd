import AuthoredStyle.Proofs.Sheet.Emptied

/-!
# Animations and font faces

What stands in an at-rule that is dropped makes no difference to a sheet's rules, wherever the
at-rule stands and whatever stands around it. Animations are dropped under two spellings only:
under any other vendor's prefix the steps are read as style rules, at the top level and in
grouping at-rules.
-/

namespace AuthoredStyle.Sheet

/-! ## Places in a sheet -/

/-- What has been read of a sheet of which this is the front. -/
def scanned (front : List Char) : Scan := Scan.run {} (dropComments front)

/-- A brace behind the text opens a block. -/
structure OpensBlock (front : List Char) : Prop where
  comments : leavesComment false front = false
  bare : (scanned front).reading = .bare

/-- What the block would stand under. -/
def preludeAt (front : List Char) : List Char := Text.trim (scanned front).segment.reverse

/-- Its comments and quotes end, and its braces have their partners. -/
structure IsBody (body : List Char) : Prop where
  comments : leavesComment false body = false
  enclosed : Enclosed (dropComments body)

def withBody (front body back : List Char) : String :=
  .ofList (front ++ '{' :: (body ++ '}' :: back))

/-- All bodies give the same rules. -/
def IgnoresBody (front back : List Char) (file : String) : Prop :=
  ∀ body body', IsBody body → IsBody body' →
    read (withBody front body back) file = read (withBody front body' back) file

theorem dropComments_withBody {front body : List Char} (opens : OpensBlock front)
    (isBody : IsBody body) (back : List Char) :
    dropComments (withBody front body back).toList =
      dropComments front ++ '{' :: (dropComments body ++ '}' :: dropComments back) := by
  have brace (c : Char) (noSlash : c ≠ '/') (s : List Char) :
      uncomment false (c :: s) = c :: uncomment false s := by
    have apart : Apart [c] s := .inl (by simpa using noSlash)
    exact uncomment_append (a := [c]) rfl apart
  have atFront : Apart front ('{' :: (body ++ '}' :: back)) := .inr (by simp)
  have atBack : Apart body ('}' :: back) := .inr (by simp)
  rw [withBody, String.toList_ofList, dropComments, uncomment_append opens.comments atFront,
    brace '{' (by decide), uncomment_append isBody.comments atBack, brace '}' (by decide)]
  rfl

/-! ## Dropped at-rules -/

/-- A dropped at-rule ignores its body, closed or unclosed blocks and stray braces around it
notwithstanding. -/
theorem ignoresBody_of_isDroppedAtRule {front : List Char} (opens : OpensBlock front)
    (dropped : isDroppedAtRule (preludeAt front) = true) (back : List Char) (file : String) :
    IgnoresBody front back file := by
  intro body body' isBody isBody'
  have parts (inner : List Char) :
      dropComments front ++ '{' :: (inner ++ '}' :: dropComments back) =
        dropComments front ++ (('{' :: (inner ++ ['}'])) ++ dropComments back) := by simp
  have twins := ((Twin.refl (scanned front)).block opens.bare isBody.enclosed isBody'.enclosed
    (.inl dropped)).run (dropComments back)
  have same : emptied (pieces (dropComments (withBody front body back).toList)) =
      emptied (pieces (dropComments (withBody front body' back).toList)) := by
    rw [dropComments_withBody opens isBody, dropComments_withBody opens isBody', parts, parts,
      pieces, pieces, Scan.run_append, Scan.run_append, Scan.run_append, Scan.run_append]
    exact twins.finish
  exact readPlain_eq_of_emptied_eq same file

/-! ## At-rules that are looked through -/

/-- Open blocks closed one by one, with nothing between the braces. -/
def closedOff : List Frame → List Piece → List Piece
  | [], inner => inner
  | f :: outer, inner =>
    closedOff outer (f.before.reverse ++ [.block f.lead inner, .statement [] false])

theorem run_closings {s : Scan} (bare : s.reading = .bare) (unstrayed : s.Unstrayed) :
    (s.run (.replicate s.frames.length '}')).finish = closedOff s.frames s.body ∧
      (s.run (.replicate s.frames.length '}')).frames = [] ∧
        (s.run (.replicate s.frames.length '}')).Unstrayed := by
  obtain ⟨frames, done, segment, parens, reading⟩ := s
  obtain rfl : reading = .bare := bare
  induction frames generalizing done segment parens with
  | nil => exact ⟨rfl, rfl, unstrayed⟩
  | cons f outer ih =>
    have within := unstrayed.step (c := '}') (by simp)
    have body (t : Scan) : (Piece.statement [] false :: .block f.lead t.body :: f.before).reverse =
        f.before.reverse ++ [.block f.lead t.body, .statement [] false] := by simp
    rw [closedOff, ← body]
    exact ih _ _ _ within

/-- At-rules around the place that a rule list is looked through for. -/
def Frame.IsLookedThrough (f : Frame) : Prop :=
  isAtRule (Text.trim f.lead) = true ∧ isOpaqueAtRule (Text.trim f.lead) = false

instance : DecidablePred Frame.IsLookedThrough := fun _ => inferInstanceAs (Decidable (_ ∧ _))

section Reached

variable (file : String)

/-- Rules inside at-rules that are looked through stand among those around them. -/
theorem exists_listedRules_closedOff {frames : List Frame}
    (through : ∀ f ∈ frames, f.IsLookedThrough) :
    ∃ before behind : RuleSet, ∀ inner,
      listedRules file (closedOff frames inner) = before ++ listedRules file inner ++ behind := by
  induction frames with
  | nil => exact ⟨∅, ∅, fun inner => by rw [closedOff, RuleSet.empty_append, RuleSet.append_empty]⟩
  | cons f outer ih =>
    obtain ⟨⟨atRule, looked⟩, rest⟩ := List.forall_mem_cons.mp through
    obtain ⟨before, behind, around⟩ := ih rest
    have nothing : (Piece.statement [] false).listedRules file = ∅ := rfl
    have here (inner : List Piece) :
        listedRules file [.block f.lead inner, .statement [] false] = listedRules file inner := by
      rw [listedRules, listedRules, listedRules, nothing, Piece.listedRules]
      simp [atRule, looked]
    refine ⟨before ++ listedRules file f.before.reverse, behind, fun inner => ?_⟩
    rw [closedOff, around, listedRules_append, here]
    simp only [RuleSet.append_assoc]

/-- Outside all blocks or in at-rules that are looked through, with no brace in front that
closes nothing. -/
structure IsReached (front : List Char) : Prop where
  unstrayed : (scanned front).Unstrayed
  through : ∀ f ∈ (scanned front).frames, f.IsLookedThrough

/-- The frames around a body: the ones around its block, and its block's own. -/
def framesAt (front : List Char) : List Frame :=
  ⟨(scanned front).done, (scanned front).segment.reverse⟩ :: (scanned front).frames

/-- A body and as many closing braces as there are open blocks. -/
theorem pieces_closings {front : List Char} (opens : OpensBlock front)
    (unstrayed : (scanned front).Unstrayed) {body : List Char} (enclosed : Enclosed body) :
    let text := dropComments front ++ '{' :: (body ++ .replicate (framesAt front).length '}')
    pieces text = closedOff (framesAt front) (pieces body) ∧ ClosesWithin (pieces text) := by
  intro text
  let inside : Scan := (Scan.run {} body).above (framesAt front)
  have frames : inside.frames = framesAt front := by
    change (Scan.run {} body).frames ++ framesAt front = framesAt front
    rw [enclosed.frames, List.nil_append]
  have there : (Scan.run {} text) = inside.run (.replicate inside.frames.length '}') := by
    rw [frames, Scan.run_append, Scan.run_cons, ← scanned, Scan.step_opening opens.bare,
      Scan.openBlock_eq opens.bare, Scan.run_append, ← framesAt,
      Scan.run_above _ enclosed.unstrayed]
  have around : inside.Unstrayed := by
    rw [Scan.Unstrayed, frames]
    exact unstrayed
  obtain ⟨closes, none, within⟩ := run_closings (s := inside) enclosed.bare around
  rw [← there] at closes none within
  have inner : inside.body = pieces body := (pieces_of_frames_eq_nil enclosed.frames).symm
  refine ⟨by rw [pieces, closes, frames, inner], fun p hp => ?_⟩
  rw [pieces_of_frames_eq_nil none, Scan.body, List.mem_reverse, List.mem_cons] at hp
  rcases hp with rfl | hp
  · rfl
  · rw [Scan.Unstrayed, none] at within
    exact within p hp

/-- The plain rules of a body that is looked through are found. -/
theorem exists_plain_withBody {front : List Char} (opens : OpensBlock front)
    (reached : IsReached front) (atRule : isAtRule (preludeAt front) = true)
    (looked : isOpaqueAtRule (preludeAt front) = false) :
    ∃ back before behind, ∀ body, IsBody body →
      (read (withBody front body back) file).plain =
        before ++ (listedRules file (pieces (dropComments body))).plain ++ behind := by
  have through : ∀ f ∈ framesAt front, f.IsLookedThrough :=
    List.forall_mem_cons.mpr ⟨⟨atRule, looked⟩, reached.through⟩
  obtain ⟨before, behind, around⟩ := exists_listedRules_closedOff file through
  let back : List Char := .replicate (scanned front).frames.length '}'
  have kept : dropComments back = back := dropComments_eq_self <|
    opensNoComment_of_not_mem fun star => by cases List.eq_of_mem_replicate star
  refine ⟨back, before.plain, behind.plain, fun body isBody => ?_⟩
  obtain ⟨cut, within⟩ := pieces_closings opens reached.unstrayed isBody.enclosed
  have text : dropComments (withBody front body back).toList =
      dropComments front ++
        '{' :: (dropComments body ++ .replicate (framesAt front).length '}') := by
    have open' : (framesAt front).length = (scanned front).frames.length + 1 := List.length_cons
    rw [dropComments_withBody opens isBody, kept, open', List.replicate_succ]
  rw [read, text, pieces_withoutCutOuts within, listedRules_filter_isCutOut, cut, around]
  simp only [RuleSet.plain_append, List.nil_append]

end Reached

/-! ## Names of at-rules -/

/-- The at-rule is an animation of some vendor or a font face. -/
def NamesAnimation (prelude : List Char) : Prop :=
  leadsWith "@keyframes" prelude = true ∨ leadsWith "@font-face" prelude = true ∨
    ∃ vendor, leadsWith ("@-" ++ vendor ++ "-keyframes") prelude = true

theorem leadsWith_iff {word : String} {prelude : List Char} :
    leadsWith word prelude = true ↔ word.toList <+: Text.lower prelude :=
  List.isPrefixOf_iff_prefix

theorem NamesAnimation.exists_cons {prelude : List Char} (h : NamesAnimation prelude) :
    ∃ c rest, Text.lower prelude = '@' :: c :: rest ∧ c ∈ ['k', 'f', '-'] := by
  simp only [NamesAnimation, leadsWith_iff] at h
  rcases h with ⟨rest, h⟩ | ⟨rest, h⟩ | ⟨vendor, rest, h⟩
  · exact ⟨'k', _, h.symm, by decide⟩
  · exact ⟨'f', _, h.symm, by decide⟩
  · rw [String.toList_append, String.toList_append] at h
    exact ⟨'-', _, h.symm, by decide⟩

theorem NamesAnimation.isAtRule {prelude : List Char} (h : NamesAnimation prelude) :
    isAtRule prelude = true := by
  obtain ⟨c, rest, shape, -⟩ := h.exists_cons
  by_contra style
  have lowered := isAtRule_lower (by simpa using style)
  rw [shape] at lowered
  cases lowered

/-- It is looked through unless it is dropped. -/
theorem NamesAnimation.isOpaqueAtRule_eq {prelude : List Char} (h : NamesAnimation prelude) :
    isOpaqueAtRule prelude = isDroppedAtRule prelude := by
  obtain ⟨c, rest, shape, first⟩ := h.exists_cons
  have other (d : Char) (word : List Char) (hd : d ∉ ['k', 'f', '-']) :
      ¬ '@' :: d :: word <+: Text.lower prelude := by
    rw [shape, List.cons_prefix_cons, List.cons_prefix_cons]
    rintro ⟨-, rfl, -⟩
    exact hd first
  have media : leadsWith "@media" prelude = false :=
    Bool.eq_false_iff.mpr fun leads => other 'm' _ (by decide) (leadsWith_iff.mp leads)
  have mixin : leadsWith "@include" prelude = false :=
    Bool.eq_false_iff.mpr fun leads => other 'i' _ (by decide) (leadsWith_iff.mp leads)
  rw [isOpaqueAtRule, media, mixin, Bool.false_or, Bool.false_or]

/-- A dropped at-rule ignores its body, wherever it stands and whatever follows. At the top level
and in at-rules that are looked through, an animation or a font face does so only if it is
dropped. -/
theorem animation_ignores_body_iff {front : List Char} (opens : OpensBlock front) :
    (isDroppedAtRule (preludeAt front) = true → ∀ back file, IgnoresBody front back file) ∧
      (NamesAnimation (preludeAt front) → IsReached front →
        ((∀ back file, IgnoresBody front back file) ↔ isDroppedAtRule (preludeAt front) = true)) := by
  refine ⟨ignoresBody_of_isDroppedAtRule opens, fun names reached => ⟨fun ignores => ?_,
    ignoresBody_of_isDroppedAtRule opens⟩⟩
  by_contra kept
  have looked : isOpaqueAtRule (preludeAt front) = false := by
    rw [names.isOpaqueAtRule_eq]
    exact Bool.eq_false_iff.mpr kept
  obtain ⟨back, before, behind, plain⟩ :=
    exists_plain_withBody "" opens reached names.isAtRule looked
  let step : List Char := ".a\x7btop:0\x7d".toList
  have isStep : IsBody step :=
    ⟨by decide +kernel, by decide +kernel, by decide +kernel, by decide +kernel⟩
  have isEmpty : IsBody [] := ⟨rfl, rfl, rfl, fun _ hp => absurd hp List.not_mem_nil⟩
  have one : (listedRules "" (pieces (dropComments step))).plain.length = 1 := by
    decide +kernel
  have none : (listedRules "" (pieces (dropComments []))).plain.length = 0 := rfl
  have same := congrArg (·.plain.length) (ignores back "" step [] isStep isEmpty)
  simp only [plain step isStep, plain [] isEmpty, List.length_append, one, none] at same
  omega

/-- In a layer a font face ignores its body, and an animation of one vendor does not. -/
theorem animation_ignores_body_iff_of_layer :
    (∀ back file, IgnoresBody "@layer base \x7b @Font-Face ".toList back file) ∧
      ¬ ∀ back file, IgnoresBody "@layer base \x7b @-Moz-Keyframes spin ".toList back file := by
  have face : OpensBlock "@layer base \x7b @Font-Face ".toList :=
    ⟨by decide +kernel, by decide +kernel⟩
  have spin : OpensBlock "@layer base \x7b @-Moz-Keyframes spin ".toList :=
    ⟨by decide +kernel, by decide +kernel⟩
  have names : NamesAnimation (preludeAt "@layer base \x7b @-Moz-Keyframes spin ".toList) :=
    .inr (.inr ⟨"moz", by decide +kernel⟩)
  have reached : IsReached "@layer base \x7b @-Moz-Keyframes spin ".toList :=
    ⟨by decide +kernel, by decide +kernel⟩
  have kept : isDroppedAtRule (preludeAt "@layer base \x7b @-Moz-Keyframes spin ".toList) = false :=
    by decide +kernel
  refine ⟨(animation_ignores_body_iff face).1 (by decide +kernel), fun ignores => ?_⟩
  rw [((animation_ignores_body_iff spin).2 names reached).mp ignores] at kept
  cases kept

/-- The step `33.3%` of an animation becomes a rule for a class. -/
theorem vendor_step_becomes_rule :
    ¬ ∀ front back file, OpensBlock front → NamesAnimation (preludeAt front) →
      IgnoresBody front back file := by
  intro always
  let front := "@-moz-keyframes spin ".toList
  let step := " 33.3% \x7b color: red \x7d ".toList
  have opens : OpensBlock front := ⟨by decide +kernel, by decide +kernel⟩
  have names : NamesAnimation (preludeAt front) := .inr (.inr ⟨"moz", by decide +kernel⟩)
  have isStep : IsBody step :=
    ⟨by decide +kernel, by decide +kernel, by decide +kernel, by decide +kernel⟩
  have isEmpty : IsBody [] := ⟨rfl, rfl, rfl, fun _ hp => absurd hp List.not_mem_nil⟩
  have same := congrArg (·.plain.map (·.selector))
    (always front [] "" opens names step [] isStep isEmpty)
  exact absurd same (by decide +kernel)

end AuthoredStyle.Sheet
