import AuthoredStyle.Sheet.Pseudo
import AuthoredStyle.Proofs.Text.Escape
import AuthoredStyle.Proofs.Text.Trim

/-!
# Pseudo tokens and brackets

The reader of pseudo tokens does not look at brackets, so it reads what stands in them like
all else. It can do so without harm: a text in brackets changes no token of any selector
exactly if each colon in it is escaped and its parentheses are balanced. A colon that is not
escaped starts a token of its own, and an odd parenthesis ends an argument that the brackets
stand in too soon or too late.

Brackets are taken as they stand, with a backslash in front or without.
-/

namespace AuthoredStyle.Sheet

open Text (AllEscaped pending)

/-- The pseudo tokens of a selector. -/
def tokens (selector : List Char) : List (List Char) := (splitPseudo selector).2

/-! ## Reading character by character -/

section Tokens

theorem tokens_eq (s : List Char) : tokens s = (partPseudo s).2 := rfl

theorem tokens_nil : tokens [] = [] := by
  rw [tokens_eq, partPseudo]

theorem tokens_escaped (c : Char) (s : List Char) : tokens ('\\' :: c :: s) = tokens s := by
  rw [tokens_eq, partPseudo]
  rfl

theorem tokens_colon (s : List Char) :
    tokens (':' :: s) = (pseudoToken s).1 :: tokens (pseudoToken s).2 := by
  rw [tokens_eq, partPseudo]
  rfl

theorem tokens_cons {c : Char} (slash : c ≠ '\\') (colon : c ≠ ':') (s : List Char) :
    tokens (c :: s) = tokens s := by
  rw [tokens_eq, partPseudo]
  · rfl
  all_goals simp_all

end Tokens

/-! ## Texts that change no tokens -/

/-- No parenthesis is closed that is not open, and none is left open. -/
structure Balanced (t : List Char) : Prop where
  closed : ∀ a b, t = a ++ b → a.count ')' ≤ a.count '('
  total : t.count '(' = t.count ')'

structure IsSilent (t : List Char) : Prop where
  colons : AllEscaped ':' t
  parens : Balanced t

section Colons

/-- Escaped colons are passed over, up to the bracket that closes behind them. -/
theorem tokens_allEscaped {t : List Char} (h : AllEscaped ':' t) (s : List Char) :
    tokens (t ++ ']' :: s) = tokens s := by
  have bracket : tokens (']' :: s) = tokens s := tokens_cons (by decide) (by decide) s
  fun_induction pending t with
  | case1 => exact bracket
  | case2 => exact tokens_escaped ']' s
  | case3 c t ih =>
    have later := (Text.allEscaped_escaped_iff (by decide) c).mp h
    exact (tokens_escaped c _).trans (ih later)
  | case4 c t last other ih =>
    have slash := Text.ne_backslash last other
    obtain ⟨colon, later⟩ := (Text.allEscaped_cons_iff slash).mp h
    exact (tokens_cons slash colon _).trans (ih later)

/-- Any other colon starts a token. -/
theorem tokens_ne_nil {a : List Char} (free : pending a ≠ true) (s : List Char) :
    tokens (a ++ ':' :: s) ≠ [] := by
  fun_induction pending a with
  | case1 => simp [tokens_colon]
  | case2 => exact absurd rfl free
  | case3 c a ih =>
    rw [List.cons_append, List.cons_append, tokens_escaped]
    exact ih free
  | case4 c a last other ih =>
    by_cases colon : c = ':'
    · subst colon
      simp [tokens_colon]
    · rw [List.cons_append, tokens_cons (Text.ne_backslash last other) colon]
      exact ih free

end Colons

/-! ## Arguments -/

section Arguments

variable {t : List Char} {depth : Nat}

/-- An argument that is not closed in a text goes on behind it. -/
theorem afterArgument_append (u : List Char)
    (opened : ∀ a b, t = a ++ b → a.count ')' < depth + a.count '(') :
    afterArgument depth (t ++ u) = afterArgument (depth + t.count '(' - t.count ')') u := by
  induction t generalizing depth with
  | nil => rfl
  | cons c t ih =>
    have inner : ∀ a b, t = a ++ b → (c :: a).count ')' < depth + (c :: a).count '(' :=
      fun a b split => opened (c :: a) b (by rw [split]; rfl)
    by_cases left : c = '('
    · subst left
      simp only [List.count_cons_self, List.count_cons_of_ne (by decide : '(' ≠ ')')] at inner ⊢
      rw [List.cons_append, afterArgument, ih fun a b split => ?_]
      · congr 1
        omega
      · have := inner a b split
        omega
    by_cases right : c = ')'
    · subst right
      simp only [List.count_cons_self, List.count_cons_of_ne (by decide : ')' ≠ '(')] at inner ⊢
      have here := inner [] t rfl
      simp only [List.count_nil] at here
      rw [List.cons_append, afterArgument, if_neg (by omega), ih fun a b split => ?_]
      · congr 1
        omega
      · have := inner a b split
        omega
    · simp only [List.count_cons_of_ne left, List.count_cons_of_ne right] at inner ⊢
      have here : afterArgument depth (c :: (t ++ u)) = afterArgument depth (t ++ u) := by
        rw [afterArgument]
        all_goals simp_all
      rw [List.cons_append, here]
      exact ih inner

/-- Otherwise all behind the closing parenthesis is left over. -/
theorem exists_afterArgument (some : 1 ≤ depth) {a b : List Char} (split : t = a ++ b)
    (closed : depth + a.count '(' ≤ a.count ')') :
    ∃ front rest, t = front ++ ')' :: rest ∧ ∀ u, afterArgument depth (t ++ u) = rest ++ u := by
  induction t generalizing depth a with
  | nil =>
    obtain ⟨rfl, -⟩ := List.append_eq_nil_iff.mp split.symm
    simp only [List.count_nil] at closed
    omega
  | cons c t ih =>
    cases a with
    | nil =>
      simp only [List.count_nil] at closed
      omega
    | cons d a =>
      obtain ⟨rfl, behind⟩ := List.cons_eq_cons.mp split
      have onward {depth' : Nat} (some : 1 ≤ depth')
          (step : ∀ s, afterArgument depth (c :: s) = afterArgument depth' s)
          (closed : depth' + a.count '(' ≤ a.count ')') :
          ∃ front rest, c :: t = front ++ ')' :: rest ∧
            ∀ u, afterArgument depth (c :: t ++ u) = rest ++ u := by
        obtain ⟨front, rest, whole, after⟩ := ih some behind closed
        exact ⟨c :: front, rest, by rw [whole]; rfl, fun u => (step _).trans (after u)⟩
      by_cases left : c = '('
      · subst left
        simp only [List.count_cons_self, List.count_cons_of_ne (by decide : '(' ≠ ')')] at closed
        exact onward (Nat.le_add_left 1 depth) (fun s => by rw [afterArgument]) (by omega)
      by_cases right : c = ')'
      · subst right
        simp only [List.count_cons_self, List.count_cons_of_ne (by decide : ')' ≠ '(')] at closed
        by_cases last : depth ≤ 1
        · exact ⟨[], t, rfl, fun u => by rw [List.cons_append, afterArgument, if_pos last]⟩
        · have more : 1 ≤ depth - 1 := by omega
          exact onward more (fun s => by rw [afterArgument, if_neg last]) (by omega)
      · simp only [List.count_cons_of_ne left, List.count_cons_of_ne right] at closed
        refine onward some (fun s => ?_) closed
        rw [afterArgument]
        all_goals simp_all

/-- Whether an argument is closed in front of a bracket is told without what is behind it. -/
theorem afterArgument_bracket (some : 1 ≤ depth) (o : List Char) :
    (∃ o', o'.length ≤ o.length ∧
        ∀ u, afterArgument depth (o ++ '[' :: u) = o' ++ '[' :: u) ∨
      ∃ depth', 1 ≤ depth' ∧ ∀ u, afterArgument depth (o ++ '[' :: u) = afterArgument depth' u := by
  by_cases closed : ∃ a b, o = a ++ b ∧ depth + a.count '(' ≤ a.count ')'
  · obtain ⟨a, b, split, closed⟩ := closed
    obtain ⟨front, rest, rfl, after⟩ := exists_afterArgument some split closed
    refine .inl ⟨rest, ?_, fun u => after _⟩
    rw [List.length_append, List.length_cons]
    omega
  · have opened : ∀ a b, o = a ++ b → a.count ')' < depth + a.count '(' :=
      fun a b split => Nat.lt_of_not_le fun h => closed ⟨a, b, split, h⟩
    have whole := opened o [] (List.append_nil o).symm
    refine .inr ⟨depth + o.count '(' - o.count ')', by omega, fun u => ?_⟩
    rw [afterArgument_append _ opened, afterArgument]
    all_goals simp

theorem Balanced.afterArgument_eq (balanced : Balanced t) (some : 1 ≤ depth) (u : List Char) :
    afterArgument depth (t ++ u) = afterArgument depth u := by
  rw [afterArgument_append u fun a b split => ?_, balanced.total, Nat.add_sub_cancel]
  have := balanced.closed a b split
  omega

theorem dropArgument_bracket (o : List Char) :
    (∃ o', o'.length ≤ o.length ∧ ∀ u, dropArgument (o ++ '[' :: u) = o' ++ '[' :: u) ∨
      ∃ depth, 1 ≤ depth ∧ ∀ u, dropArgument (o ++ '[' :: u) = afterArgument depth u := by
  cases o with
  | nil => exact .inl ⟨[], Nat.le_refl _, fun _ => rfl⟩
  | cons c o =>
    by_cases opens : c = '('
    · subst opens
      rcases afterArgument_bracket (Nat.le_refl 1) o with ⟨o', shorter, after⟩ | inside
      · exact .inl ⟨o', Nat.le_succ_of_le shorter, after⟩
      · exact .inr inside
    · refine .inl ⟨c :: o, Nat.le_refl _, fun u => ?_⟩
      rw [List.cons_append, dropArgument]
      simp [opens]

theorem takeWhile_bracket (o u : List Char) :
    (o ++ '[' :: u).takeWhile isPseudoNameChar = o.takeWhile isPseudoNameChar ∧
      (o ++ '[' :: u).dropWhile isPseudoNameChar = o.dropWhile isPseudoNameChar ++ '[' :: u := by
  have stops : isPseudoNameChar '[' = false := by decide +kernel
  induction o with
  | nil => simp [stops]
  | cons c o ih =>
    rw [List.cons_append]
    cases named : isPseudoNameChar c with
    | true => simpa [named] using ih
    | false => simp [named]

/-- A token in front of a bracket is over before it, or its argument goes on inside. -/
theorem pseudoToken_bracket (o : List Char) :
    ∃ token,
      (∃ o', o'.length ≤ o.length ∧ ∀ u, pseudoToken (o ++ '[' :: u) = (token, o' ++ '[' :: u)) ∨
        ∃ depth, 1 ≤ depth ∧ ∀ u, pseudoToken (o ++ '[' :: u) = (token, afterArgument depth u) := by
  -- One colon or two, the name behind them is read alike.
  have named (colons name : List Char) (shorter : name.length ≤ o.length)
      (read : ∀ u, pseudoToken (o ++ '[' :: u) =
        (colons ++ Text.lower ((name ++ '[' :: u).takeWhile isPseudoNameChar),
          dropArgument ((name ++ '[' :: u).dropWhile isPseudoNameChar))) :
      ∃ token,
        (∃ o', o'.length ≤ o.length ∧
            ∀ u, pseudoToken (o ++ '[' :: u) = (token, o' ++ '[' :: u)) ∨
          ∃ depth, 1 ≤ depth ∧
            ∀ u, pseudoToken (o ++ '[' :: u) = (token, afterArgument depth u) := by
    have bound := (List.dropWhile_sublist (p := isPseudoNameChar) (l := name)).length_le
    refine ⟨colons ++ Text.lower (name.takeWhile isPseudoNameChar), ?_⟩
    simp only [read, takeWhile_bracket, Prod.mk.injEq, true_and]
    rcases dropArgument_bracket (name.dropWhile isPseudoNameChar) with ⟨o', short, after⟩ | inside
    · exact .inl ⟨o', short.trans (bound.trans shorter), after⟩
    · exact .inr inside
  by_cases double : o.head? = some ':'
  · obtain ⟨rest, rfl⟩ := List.head?_eq_some_iff.mp double
    exact named [':', ':'] rest (Nat.le_succ _) fun u => rfl
  · refine named [':'] o (Nat.le_refl _) fun u => ?_
    rw [pseudoToken]
    intro rest starts
    cases o with
    | nil => simp at starts
    | cons c o => exact double (by rw [(List.cons_eq_cons.mp starts).1]; rfl)

end Arguments

/-! ## Brackets of one selector -/

section Brackets

variable {t : List Char}

theorem isSilent_of_not_mem (colon : ':' ∉ t) (left : '(' ∉ t) (right : ')' ∉ t) :
    IsSilent t where
  colons := by
    rintro a b rfl
    exact absurd (by simp) colon
  parens := by
    refine ⟨?_, ?_⟩
    · rintro a b rfl
      rw [List.count_eq_zero_of_not_mem fun h => right (List.mem_append_left _ h)]
      exact Nat.zero_le _
    · rw [List.count_eq_zero_of_not_mem left, List.count_eq_zero_of_not_mem right]

/-- Where a silent text stands in brackets, there may as well be nothing. -/
theorem IsSilent.tokens_eq (silent : IsSilent t) (s : List Char) :
    ∀ o : List Char, tokens (o ++ '[' :: (t ++ ']' :: s)) = tokens (o ++ '[' :: ']' :: s)
  | [] => by
    have bracket (u : List Char) : tokens ('[' :: u) = tokens u :=
      tokens_cons (by decide) (by decide) u
    rw [List.nil_append, List.nil_append, bracket, bracket, tokens_allEscaped silent.colons]
    exact (tokens_cons (by decide) (by decide) s).symm
  | c :: o => by
    by_cases slash : c = '\\'
    · subst slash
      cases o with
      | nil =>
        simp only [List.cons_append, List.nil_append, tokens_escaped]
        rw [tokens_allEscaped silent.colons]
        exact (tokens_cons (by decide) (by decide) s).symm
      | cons d o =>
        simp only [List.cons_append, tokens_escaped]
        exact IsSilent.tokens_eq silent s o
    by_cases colon : c = ':'
    · subst colon
      simp only [List.cons_append, tokens_colon]
      obtain ⟨token, ⟨o', shorter, after⟩ | ⟨depth, some, after⟩⟩ := pseudoToken_bracket o
      · have shorter : o'.length < (':' :: o).length := Nat.lt_succ_of_le shorter
        simp only [after]
        rw [IsSilent.tokens_eq silent s o']
      · simp only [after]
        rw [silent.parens.afterArgument_eq some]
    · simp only [List.cons_append, tokens_cons slash colon]
      exact IsSilent.tokens_eq silent s o
termination_by o => o.length

/-! ## All brackets of a selector -/

/-- Brackets are closed before others are opened, and only open ones are closed. -/
def bracketsMatch (inside : Bool) : List Char → Bool
  | [] => !inside
  | c :: s =>
    if c = '[' then !inside && bracketsMatch true s
    else if c = ']' then inside && bracketsMatch false s
    else bracketsMatch inside s

/-- The selector without what stands in brackets, the brackets themselves kept. -/
def emptyBrackets (inside : Bool) : List Char → List Char
  | [] => []
  | c :: s =>
    if c = '[' then c :: emptyBrackets true s
    else if c = ']' then c :: emptyBrackets false s
    else if inside then emptyBrackets inside s
    else c :: emptyBrackets inside s

def NoBracket (t : List Char) : Prop := '[' ∉ t ∧ ']' ∉ t

/-- All of the text between a bracket of the selector and the next. -/
def StandsInBrackets (t s : List Char) : Prop :=
  NoBracket t ∧ ∃ a b, s = a ++ '[' :: (t ++ ']' :: b)

theorem StandsInBrackets.behind {s : List Char} (h : StandsInBrackets t s) (a : List Char) :
    StandsInBrackets t (a ++ s) := by
  obtain ⟨bare, front, b, rfl⟩ := h
  exact ⟨bare, a ++ front, b, (List.append_assoc ..).symm⟩

/-- One bracket after the other is emptied, from the front. -/
theorem tokens_emptyBrackets (s : List Char) :
    (bracketsMatch false s = true → (∀ t, StandsInBrackets t s → IsSilent t) →
        ∀ o, tokens (o ++ s) = tokens (o ++ emptyBrackets false s)) ∧
      (bracketsMatch true s = true → ∀ t, NoBracket t →
        (∀ t', StandsInBrackets t' ('[' :: (t ++ s)) → IsSilent t') →
          ∀ o, tokens (o ++ '[' :: (t ++ s)) = tokens (o ++ '[' :: emptyBrackets true s)) := by
  induction s with
  | nil => exact ⟨fun _ _ _ => rfl, fun unmatched => (by simp [bracketsMatch] at unmatched)⟩
  | cons c s ih =>
    obtain ⟨outside, inside⟩ := ih
    have onward (o u : List Char) : o ++ c :: u = o ++ [c] ++ u := by simp
    by_cases opens : c = '['
    · subst opens
      refine ⟨fun matched silent o => ?_, fun unmatched => (by simp [bracketsMatch] at unmatched)⟩
      exact inside (by simpa [bracketsMatch] using matched) [] ⟨by simp, by simp⟩ silent o
    by_cases closes : c = ']'
    · subst closes
      refine ⟨fun unmatched => (by simp [bracketsMatch] at unmatched),
        fun matched t bare silent o => ?_⟩
      have here : IsSilent t := silent t ⟨bare, [], s, rfl⟩
      have later : ∀ t', StandsInBrackets t' s → IsSilent t' := by
        intro t' stands
        have behind := stands.behind ('[' :: (t ++ [']']))
        exact silent t' (by simpa using behind)
      have rest := outside (by simpa [bracketsMatch] using matched) later (o ++ ['[', ']'])
      rw [here.tokens_eq s o]
      simpa [emptyBrackets] using rest
    · simp only [bracketsMatch, emptyBrackets, if_neg opens, if_neg closes, Bool.false_eq_true,
        if_false, if_true]
      refine ⟨fun matched silent o => ?_, fun matched t bare silent o => ?_⟩
      · rw [onward o s, onward o (emptyBrackets false s)]
        exact outside matched (fun t stands => silent t (stands.behind [c])) (o ++ [c])
      · have longer : NoBracket (t ++ [c]) := by
          simpa [NoBracket, opens, closes, eq_comm] using bare
        rw [onward t] at silent ⊢
        exact inside matched (t ++ [c]) longer silent o

/-- As if all brackets were empty. -/
def IgnoresBrackets (selector : List Char) : Prop :=
  tokens selector = tokens (emptyBrackets false selector)

end Brackets

/-! ## Texts that do change tokens -/

section Necessity

variable {t front behind : List Char}

theorem bracketsMatch_append (bare : NoBracket t) (inside : Bool) (s : List Char) :
    bracketsMatch inside (t ++ s) = bracketsMatch inside s := by
  induction t with
  | nil => rfl
  | cons c t ih =>
    obtain ⟨opens, noOpening⟩ := List.ne_and_not_mem_of_not_mem_cons bare.1
    obtain ⟨closes, noClosing⟩ := List.ne_and_not_mem_of_not_mem_cons bare.2
    rw [List.cons_append, bracketsMatch, if_neg opens.symm, if_neg closes.symm,
      ih ⟨noOpening, noClosing⟩]

theorem emptyBrackets_append (bare : NoBracket t) (inside : Bool) (s : List Char) :
    emptyBrackets inside (t ++ s) = (if inside then [] else t) ++ emptyBrackets inside s := by
  induction t with
  | nil => cases inside <;> rfl
  | cons c t ih =>
    obtain ⟨opens, noOpening⟩ := List.ne_and_not_mem_of_not_mem_cons bare.1
    obtain ⟨closes, noClosing⟩ := List.ne_and_not_mem_of_not_mem_cons bare.2
    rw [List.cons_append, emptyBrackets, if_neg opens.symm, if_neg closes.symm,
      ih ⟨noOpening, noClosing⟩]
    cases inside <;> rfl

theorem eq_of_standsInBrackets (clear : NoBracket front) (bare : NoBracket t) {t' : List Char}
    (clear' : NoBracket behind)
    (stands : StandsInBrackets t' (front ++ '[' :: (t ++ ']' :: behind))) : t' = t := by
  obtain ⟨bare', a, b, split⟩ := stands
  have first : '[' ∉ a := by
    have opened := congrArg (List.count '[') split
    simp only [List.count_append, List.count_cons_self, List.count_eq_zero_of_not_mem clear.1,
      List.count_eq_zero_of_not_mem bare.1, List.count_eq_zero_of_not_mem clear'.1,
      List.count_cons_of_ne (by decide : ']' ≠ '[')] at opened
    exact List.count_eq_zero.mp (by omega)
  have opened := Text.cut?_first (t ++ ']' :: behind) clear.1
  rw [split, Text.cut?_first _ first] at opened
  obtain ⟨-, opened⟩ := Prod.mk.inj (Option.some.inj opened)
  have closed := Text.cut?_first behind bare.2
  rw [← opened, Text.cut?_first _ bare'.2] at closed
  exact (Prod.mk.inj (Option.some.inj closed)).1

/-- What ignoring says of one pair of brackets. -/
theorem IgnoresBrackets.tokens_eq (clear : NoBracket front) (bare : NoBracket t)
    (clear' : NoBracket behind) (ignores : IgnoresBrackets (front ++ '[' :: (t ++ ']' :: behind))) :
    tokens (front ++ '[' :: (t ++ ']' :: behind)) = tokens (front ++ '[' :: ']' :: behind) := by
  have emptied : emptyBrackets false (front ++ '[' :: (t ++ ']' :: behind)) =
      front ++ '[' :: ']' :: behind := by
    have rest := emptyBrackets_append clear' false []
    rw [List.append_nil] at rest
    rw [emptyBrackets_append clear, emptyBrackets, if_pos rfl, emptyBrackets_append bare,
      emptyBrackets, if_neg (by decide), if_pos rfl, rest]
    simp [emptyBrackets]
  rw [IgnoresBrackets, emptied] at ignores
  exact ignores

theorem bracketsMatch_one (clear : NoBracket front) (bare : NoBracket t)
    (clear' : NoBracket behind) :
    bracketsMatch false (front ++ '[' :: (t ++ ']' :: behind)) = true := by
  have rest := bracketsMatch_append clear' false []
  rw [List.append_nil] at rest
  rw [bracketsMatch_append clear, bracketsMatch, if_pos rfl, bracketsMatch_append bare,
    bracketsMatch, if_neg (by decide), if_pos rfl, rest]
  rfl

/-- In brackets by itself a silent text makes no token. -/
theorem allEscaped_of_tokens_eq (alone : tokens ('[' :: (t ++ [']'])) = tokens ['[', ']']) :
    AllEscaped ':' t := by
  intro a b split
  by_contra free
  have here := tokens_ne_nil free (b ++ [']'])
  have bracket : tokens ('[' :: (t ++ [']'])) = tokens (t ++ [']']) :=
    tokens_cons (by decide) (by decide) _
  rw [split, List.append_assoc, List.cons_append] at bracket
  rw [split, List.append_assoc, List.cons_append, bracket] at alone
  exact here (alone.trans (by decide +kernel))

/-- In an argument with a colon in it and another behind it, it leaves both where they are. -/
theorem balanced_of_tokens_eq (colons : AllEscaped ':' t)
    (inside : tokens ([':', '('] ++ '[' :: (t ++ ']' :: [':', ')', ':'])) =
      tokens ([':', '('] ++ '[' :: ']' :: [':', ')', ':'])) : Balanced t := by
  have emptied : tokens ([':', '('] ++ '[' :: ']' :: [':', ')', ':']) = [[':'], [':']] := by
    decide +kernel
  have argument (u : List Char) :
      tokens ([':', '('] ++ '[' :: u) = [':'] :: tokens (afterArgument 1 u) := by
    have stops : isPseudoNameChar '(' = false := by decide +kernel
    simp only [List.cons_append, List.nil_append, tokens_colon]
    simp [pseudoToken, stops, dropArgument, afterArgument, Text.lower]
  rw [emptied, argument] at inside
  obtain ⟨-, inside⟩ := List.cons_eq_cons.mp inside
  have closed : ∀ a b, t = a ++ b → a.count ')' ≤ a.count '(' := by
    intro a b split
    by_contra early
    obtain ⟨front, rest, rfl, after⟩ := exists_afterArgument (Nat.le_refl 1) split (by omega)
    rw [after, tokens_allEscaped (colons.of_append_cons (by decide))] at inside
    exact absurd inside (by decide +kernel)
  refine ⟨closed, ?_⟩
  have most := closed t [] (List.append_nil t).symm
  by_contra late
  rw [afterArgument_append _ fun a b split => Nat.lt_of_le_of_lt (closed a b split) (by omega)]
    at inside
  obtain ⟨depth, deep⟩ : ∃ depth, 1 + t.count '(' - t.count ')' = depth + 2 :=
    ⟨t.count '(' - t.count ')' - 1, by omega⟩
  rw [deep] at inside
  simp [afterArgument, tokens_nil] at inside

/-- Emptying brackets changes no token, whatever texts of this kind stand in them, exactly if
all texts of the kind are silent. -/
theorem ignoresBrackets_iff (kind : List Char → Prop) :
    (∀ s, bracketsMatch false s = true → (∀ t, StandsInBrackets t s → kind t) →
        IgnoresBrackets s) ↔ ∀ t, NoBracket t → kind t → IsSilent t := by
  constructor
  · intro ignored t bare known
    have context (front behind : List Char) (clear : NoBracket front) (clear' : NoBracket behind) :
        tokens (front ++ '[' :: (t ++ ']' :: behind)) = tokens (front ++ '[' :: ']' :: behind) := by
      refine IgnoresBrackets.tokens_eq clear bare clear'
        (ignored _ (bracketsMatch_one clear bare clear') fun t' stands => ?_)
      rwa [eq_of_standsInBrackets clear bare clear' stands]
    have colons := allEscaped_of_tokens_eq (context [] [] ⟨by simp, by simp⟩ ⟨by simp, by simp⟩)
    exact ⟨colons, balanced_of_tokens_eq colons
      (context _ _ ⟨by decide, by decide⟩ ⟨by decide, by decide⟩)⟩
  · intro silent s matched stand
    exact (tokens_emptyBrackets s).1 matched (fun t stands => silent t stands.1 (stand t stands)) []

end Necessity

end AuthoredStyle.Sheet
