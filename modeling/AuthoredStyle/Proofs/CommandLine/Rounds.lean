import AuthoredStyle.CommandLine.Run
import AuthoredStyle.Proofs.SourceMap.Reach

/-!
# Runs on files that were looked at before

A run is decided by files that were all looked at before it. Four rounds of looking are enough for
it to come out as on the file system itself: one for the document, and one for each round in which
its stylesheets ask for addresses.
-/

namespace AuthoredStyle

open SourceMap (Agree)

variable [Libraries]

/-! ## Documents whose sheets are answered alike -/

section Documents

variable {f g : SourceMap.Fetcher} {base html : String}

theorem Page.Static.rulesOf_congr {sheets : List Page.Stylesheet}
    (agree : ∀ sheet ∈ sheets, Agree f g sheet 3) : rulesOf f sheets = rulesOf g sheets := by
  have texts : ∀ sheet ∈ sheets, sheetText? f sheet = sheetText? g sheet := by
    intro sheet here
    cases sheet with
    | inline text base => rfl
    | external href =>
      have own := agree _ here 0 (by omega) href (List.mem_singleton_self href)
      rw [sheetText?, sheetText?, own]
  rw [rulesOf, rulesOf, List.filterMap_congr texts]

theorem Extraction.session_congr
    (agree : ∀ sheet ∈ Page.Static.stylesheets base html, Agree f g sheet 3) :
    session f base html = session g base html := by
  have page : Page.Static.snapshot f base html = Page.Static.snapshot g base html := by
    rw [Page.Static.snapshot, Page.Static.snapshot, Page.Static.rulesOf_congr agree]
  have sheets : ∀ s, Page.Static.snapshot g base html = .ok s →
      s.stylesheets = Page.Static.stylesheets base html := by
    intro s made
    rw [Page.Static.snapshot] at made
    split at made <;> cases made
    rfl
  rw [session, session, Page.Static.load, Page.Static.load, page]
  cases made : Page.Static.snapshot g base html with
  | error e => rfl
  | ok s =>
    have loaded : SourceMap.resolve f s.stylesheets = SourceMap.resolve g s.stylesheets := by
      refine SourceMap.resolve_congr fun sheet here => SourceMap.agree_three_iff.mp ?_
      rw [sheets s made] at here
      exact agree sheet here
    simp only [Except.map, bind, Except.bind, pure, Except.pure, Session.load, Page.ofSnapshot,
      loaded]

end Documents

namespace CommandLine

/-! ## Fetching from files -/

/-- Only the file that an address leads to counts. -/
theorem fetcher_congr {files known : Files} {url : String}
    (same : ∀ path, pathAsked? url = some path → known path = files path) :
    known.fetcher url = files.fetcher url := by
  simp only [Files.fetcher, SourceMap.Fetcher.byScheme]
  split
  · rfl
  split
  · rename_i lead
    rw [pathAsked?, if_pos lead] at same
    simp only [SourceMap.Fetcher.ofFiles]
    cases named : SourceMap.filePath? url with
    | none => rfl
    | some path =>
      dsimp only
      rw [same path named]
  · rfl

/-- A run is decided by the document and by what its sheets ask for. -/
theorem run_congr {files known : Files} {args : List String}
    (input : ∀ a, read args = .ok (.run a) → known a.input = files a.input)
    (agree : ∀ a html base, read args = .ok (.run a) → document files a = .ok (html, base) →
      ∀ sheet ∈ Page.Static.stylesheets base html, Agree known.fetcher files.fetcher sheet 3) :
    run known args = run files args := by
  rw [run, run]
  cases said : read args with
  | error misuse => rfl
  | ok request =>
    cases request with
    | help => rfl
    | run a =>
      have same : document known a = document files a := by
        rw [document, document, input a said]
      dsimp only
      rw [extract, extract, same]
      cases there : document files a with
      | error failure => rfl
      | ok told =>
        obtain ⟨html, base⟩ := told
        have sessions := Extraction.session_congr (agree a html base said there)
        simp only [bind, Except.bind, Extraction.tree, sessions]

/-! ## Rounds -/

section Rounds

variable {files : Files} {args : List String} {known : Dict Finding}

/-- What is known after a round on files that stay as they are. -/
def knownAfter (files : Files) (args : List String) (known : Dict Finding) : Dict Finding :=
  ((pathsAsked (filesOf known) args).filter (!known.contains ·)).foldl
    (fun d path => d.insert path (files path)) known

theorem get?_knownAfter (path : String) :
    (knownAfter files args known).get? path =
      if path ∈ pathsAsked (filesOf known) args ∧ known.get? path = none then some (files path)
      else known.get? path := by
  have mapped := Dict.get?_foldl_insert_map
    ((pathsAsked (filesOf known) args).filter (!known.contains ·)) files known path
  rw [List.foldl_map] at mapped
  rw [knownAfter, mapped]
  simp [Dict.contains]

/-- What is known of the files is so. -/
def Faithful (files : Files) (known : Dict Finding) : Prop :=
  ∀ path finding, known.get? path = some finding → finding = files path

theorem Faithful.knownAfter (faithful : Faithful files known) :
    Faithful files (knownAfter files args known) := by
  intro path finding held
  rw [get?_knownAfter] at held
  split at held
  · exact (Option.some.inj held).symm
  · exact faithful path finding held

omit [Libraries] in
theorem Faithful.filesOf_eq (faithful : Faithful files known) {path : String}
    (held : (known.get? path).isSome) : filesOf known path = files path := by
  obtain ⟨finding, held⟩ := Option.isSome_iff_exists.mp held
  rw [filesOf, held, Option.getD_some, faithful path finding held]

/-- A round forgets nothing and learns what was asked for. -/
theorem isSome_knownAfter {path : String}
    (h : (known.get? path).isSome ∨ path ∈ pathsAsked (filesOf known) args) :
    ((CommandLine.knownAfter files args known).get? path).isSome := by
  rw [get?_knownAfter]
  split
  · rfl
  · rename_i other
    rcases h with held | here
    · exact held
    · rw [not_and, ← ne_eq, Option.ne_none_iff_isSome] at other
      exact other here

/-- An address either leads to nothing new or to a file that is known now. -/
theorem fetcher_knownAfter (faithful : Faithful files known) (url : String) :
    (filesOf (CommandLine.knownAfter files args known)).fetcher url = (filesOf known).fetcher url ∨
      (filesOf (CommandLine.knownAfter files args known)).fetcher url = files.fetcher url := by
  cases leads : pathAsked? url with
  | none => exact .inr (fetcher_congr fun path told => by cases leads.symm.trans told)
  | some path =>
    by_cases held : ((CommandLine.knownAfter files args known).get? path).isSome
    · refine .inr (fetcher_congr fun path' told => ?_)
      cases leads.symm.trans told
      exact faithful.knownAfter.filesOf_eq held
    · refine .inl (fetcher_congr fun path' told => ?_)
      cases leads.symm.trans told
      have unheld : known.get? path = none := by
        by_contra held'
        exact held (isSome_knownAfter (.inl (Option.isSome_iff_ne_none.mpr held')))
      rw [filesOf, filesOf, unheld, Option.not_isSome_iff_eq_none.mp held]

variable {a : Arguments}

theorem input_mem_pathsAsked (said : read args = .ok (.run a)) (known : Files) :
    a.input ∈ pathsAsked known args := by
  rw [pathsAsked, said]
  dsimp only
  split <;> exact List.mem_cons_self

theorem mem_pathsAsked (said : read args = .ok (.run a)) {known : Files} {html base : String}
    (there : document known a = .ok (html, base)) {sheet : Page.Stylesheet}
    (here : sheet ∈ Page.Static.stylesheets base html) {url path : String}
    (asks : url ∈ SourceMap.asked known.fetcher sheet) (leads : pathAsked? url = some path) :
    path ∈ pathsAsked known args := by
  rw [pathsAsked, said]
  simp only [there]
  exact List.mem_cons_of_mem _
    (List.mem_filterMap.mpr ⟨url, List.mem_flatMap.mpr ⟨sheet, here, asks⟩, leads⟩)

/-- How far one has come a number of rounds behind the first. -/
structure Reached (files : Files) (a : Arguments) (known : Dict Finding) (rounds : Nat) : Prop where
  faithful : Faithful files known
  input : (known.get? a.input).isSome
  agree : ∀ html base, document files a = .ok (html, base) →
    ∀ sheet ∈ Page.Static.stylesheets base html,
      Agree (filesOf known).fetcher files.fetcher sheet rounds

theorem Reached.input_eq {rounds : Nat} (reached : Reached files a known rounds) :
    filesOf known a.input = files a.input :=
  reached.faithful.filesOf_eq reached.input

/-- The first round brings the document. -/
theorem reached_first (said : read args = .ok (.run a)) :
    Reached files a (knownAfter files args ∅) 0 where
  faithful := Faithful.knownAfter fun path finding held => by cases held
  input := isSome_knownAfter (.inr (input_mem_pathsAsked said _))
  agree := fun html base there sheet here round early => by omega

theorem Reached.succ {rounds : Nat} (said : read args = .ok (.run a))
    (reached : Reached files a known rounds) :
    Reached files a (knownAfter files args known) (rounds + 1) where
  faithful := reached.faithful.knownAfter
  input := isSome_knownAfter (.inl reached.input)
  agree := by
    intro html base there sheet here
    have known_there : document (filesOf known) a = .ok (html, base) := by
      rw [← there, document, document, reached.input_eq]
    refine (reached.agree html base there sheet here).succ (fun url same => ?_) fun url asks => ?_
    · rcases fetcher_knownAfter reached.faithful url with old | new
      · exact old.trans same
      · exact new
    · refine fetcher_congr fun path leads => reached.faithful.knownAfter.filesOf_eq ?_
      exact isSome_knownAfter (.inr (mem_pathsAsked said known_there here asks leads))

theorem reached_iterate (said : read args = .ok (.run a)) (rounds : Nat) :
    Reached files a ((knownAfter files args)^[rounds + 1] ∅) rounds := by
  induction rounds with
  | zero => exact reached_first said
  | succ rounds ih =>
    rw [Function.iterate_succ_apply']
    exact ih.succ said

/-- From four rounds on, a run comes out as on the files themselves. -/
theorem run_iterate (files : Files) (args : List String) (rounds : Nat) :
    run (filesOf ((knownAfter files args)^[rounds + 4] ∅)) args = run files args := by
  refine run_congr (fun a said => ?_) fun a html base said there sheet here => ?_
  · exact (reached_iterate said (rounds + 3)).input_eq
  · exact ((reached_iterate said (rounds + 3)).agree html base there sheet here).mono (by omega)

end Rounds

/-! ## Looking -/

section Looking

variable {m : Type → Type} [Monad m] [LawfulMonad m] (files : Files) (args : List String)

theorem lookRound_pure (known : Dict Finding) :
    lookRound (fun path => (pure (files path) : m Finding)) args known =
      pure (knownAfter files args known) := by
  simp only [lookRound, knownAfter, pure_bind, List.foldlM_pure]

theorem gather_pure (rounds : Nat) (known : Dict Finding) :
    gather (fun path => (pure (files path) : m Finding)) args rounds known =
      pure ((knownAfter files args)^[rounds] known) := by
  induction rounds generalizing known with
  | zero => rfl
  | succ rounds ih => rw [gather, lookRound_pure, pure_bind, ih, Function.iterate_succ_apply]

/-- Where looking at a file always finds the same, a program run comes out as if all files had
been known from the start. -/
theorem runWith_pure :
    runWith (fun path => (pure (files path) : m Finding)) args = pure (run files args) := by
  rw [runWith, gather_pure, pure_bind, run_iterate files args 0]

end Looking

end CommandLine

end AuthoredStyle
