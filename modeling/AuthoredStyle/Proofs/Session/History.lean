import AuthoredStyle.Libraries.BuiltIn
import AuthoredStyle.Session.Basic
import Mathlib.Control.Monad.Basic

/-!
# Rules in force over a history

A host sends requests to a session, each at a moment at which other things may be
fetched, and now and then holds on to the rules in force. Only a load or a clearing
changes them, so after any history they are what the latest load came to, or none
when there was no load or a clearing after it. Texts that are no request and requests
that fail belong to a history like all others. What a load comes to is not looked into.
-/

namespace AuthoredStyle.Session

open SourceMap (Fetcher Resolution)

/-! ## One request -/

section Request

variable [Libraries] {s : Session} {fetch : Fetcher} {text : String}

theorem request_load (load : Command.read text = .ok .loadSourceMaps) :
    (s.request fetch text).1 = s.load fetch := by
  simp only [request, load, handle]

theorem request_clear (clear : Command.read text = .ok .clearSourceMaps) :
    (s.request fetch text).1 = s.clear := by
  simp only [request, clear, handle]

theorem request_other (noLoad : Command.read text ≠ .ok .loadSourceMaps)
    (noClear : Command.read text ≠ .ok .clearSourceMaps) : (s.request fetch text).1 = s := by
  unfold request
  split
  case h_1 command read =>
    cases command with
    | loadSourceMaps => exact absurd read noLoad
    | clearSourceMaps => exact absurd read noClear
    | sourceMapStatus | styleTree _ _ _ | elementInfo _ | scss _ _ _ => rfl
  case h_2 => rfl

/-- Both requests leave the depth to the session and look for the same element. -/
theorem request_scss {fetch' : Fetcher} {text' path : String} {useSourceMap : Option Bool}
    {style : Scss.Options} (scss : Command.read text = .ok (.scss path useSourceMap style))
    (tree : Command.read text' = .ok (.styleTree path useSourceMap none)) :
    (∃ h node, s.page.resolve? path = some h ∧ (s.request fetch' text').2 = .tree node ∧
        (s.request fetch text).2 = .text (Scss.serialize style node)) ∨
      s.page.resolve? path = none ∧ (s.request fetch' text').2 = .failed .elementNotFound ∧
        (s.request fetch text).2 = .failed .elementNotFound := by
  simp only [request, scss, tree, handle, Session.scss, styleTree, element]
  cases s.page.resolve? path with
  | some h => exact .inl ⟨h, _, rfl, rfl, rfl⟩
  | none => exact .inr ⟨rfl, rfl, rfl⟩

end Request

/-! ## Histories -/

section Histories

variable [Libraries]

/-- What a host does. -/
inductive Event where
  | request (fetch : Fetcher) (text : String)
  /-- Hold on to the rules in force. -/
  | hold

namespace Event

def Loads (e : Event) (fetch : Fetcher) : Prop :=
  ∃ text, e = .request fetch text ∧ Command.read text = .ok .loadSourceMaps

def Clears (e : Event) : Prop :=
  ∃ fetch text, e = .request fetch text ∧ Command.read text = .ok .clearSourceMaps

/-- The rules that an event puts in force. -/
def sets? (sheets : List Page.Stylesheet) : Event → Option Resolution
  | .request fetch text =>
    match Command.read text with
    | .ok .loadSourceMaps => some (SourceMap.resolve fetch sheets)
    | .ok .clearSourceMaps => some ∅
    | _ => none
  | .hold => none

variable {sheets : List Page.Stylesheet} {e : Event}

theorem Loads.sets? {fetch : Fetcher} (loads : e.Loads fetch) :
    e.sets? sheets = some (SourceMap.resolve fetch sheets) := by
  obtain ⟨text, rfl, read⟩ := loads
  simp only [Event.sets?, read]

theorem Clears.sets? (clears : e.Clears) : e.sets? sheets = some ∅ := by
  obtain ⟨fetch, text, rfl, read⟩ := clears
  simp only [Event.sets?, read]

theorem sets?_eq_some {r : Resolution} (sets : e.sets? sheets = some r) :
    (∃ fetch, e.Loads fetch ∧ r = SourceMap.resolve fetch sheets) ∨ e.Clears ∧ r = ∅ := by
  cases e with
  | hold => cases sets
  | request fetch text =>
    simp only [Event.sets?] at sets
    split at sets
    case h_1 load => exact .inl ⟨fetch, ⟨text, rfl, load⟩, (Option.some.inj sets).symm⟩
    case h_2 clear => exact .inr ⟨⟨fetch, text, rfl, clear⟩, (Option.some.inj sets).symm⟩
    case h_3 => cases sets

theorem sets?_eq_none_iff : e.sets? sheets = none ↔ (∀ fetch, ¬ e.Loads fetch) ∧ ¬ e.Clears := by
  constructor
  · intro none
    refine ⟨fun fetch loads => ?_, fun clears => ?_⟩
    · rw [loads.sets?] at none
      cases none
    · rw [clears.sets?] at none
      cases none
  · rintro ⟨noLoad, noClear⟩
    cases sets : e.sets? sheets with
    | none => rfl
    | some r =>
      rcases sets?_eq_some sets with ⟨fetch, loads, -⟩ | ⟨clears, -⟩
      · exact absurd loads (noLoad fetch)
      · exact absurd clears noClear

end Event

/-- The latest load was made with this fetcher, and nothing was cleared since. -/
def InForce (events : List Event) (fetch : Fetcher) : Prop :=
  ∃ before e after, events = before ++ e :: after ∧ e.Loads fetch ∧
    ∀ e' ∈ after, (∀ fetch', ¬ e'.Loads fetch') ∧ ¬ e'.Clears

/-- A session with what its host holds on to, the latest last. -/
structure Hosted where
  session : Session
  held : List Resolution := []

namespace Hosted

/-- A host that has only just got its session. -/
def attach (snapshot : Page.Snapshot) (options : BuildOptions) : Hosted where
  session := { page := .ofSnapshot snapshot, options := options }

def step (h : Hosted) : Event → Hosted
  | .request fetch text => { h with session := (h.session.requestText fetch text).1 }
  | .hold => { h with held := h.held ++ [h.session.rules] }

def run (h : Hosted) (events : List Event) : Hosted := events.foldl step h

variable {h : Hosted}

theorem run_append (before after : List Event) : h.run (before ++ after) = (h.run before).run after :=
  List.foldl_append

theorem run_cons (e : Event) (events : List Event) : h.run (e :: events) = (h.step e).run events := rfl

theorem session_step (e : Event) :
    (h.step e).session =
      { h.session with rules := (e.sets? h.session.page.stylesheets).getD h.session.rules } := by
  cases e with
  | hold => rfl
  | request fetch text =>
    change (h.session.request fetch text).1 = _
    simp only [Event.sets?]
    split
    case h_1 load => exact request_load load
    case h_2 clear => exact request_clear clear
    case h_3 noLoad noClear => exact request_other noLoad noClear

/-- The latest event that puts rules in force counts. -/
theorem session_run (events : List Event) :
    (h.run events).session =
      { h.session with
        rules := (events.reverse.findSome? (·.sets? h.session.page.stylesheets)).getD
          h.session.rules } := by
  induction events generalizing h with
  | nil => rfl
  | cons e events ih =>
    rw [run_cons, ih, session_step, List.reverse_cons, List.findSome?_append, Option.getD_or,
      List.findSome?_singleton]

theorem page_run (events : List Event) : (h.run events).session.page = h.session.page :=
  congrArg (·.page) (session_run events)

theorem held_run (events : List Event) : ∃ more, (h.run events).held = h.held ++ more := by
  induction events generalizing h with
  | nil => exact ⟨[], (List.append_nil _).symm⟩
  | cons e events ih =>
    obtain ⟨more, later⟩ := ih (h := h.step e)
    rw [run_cons, later]
    cases e with
    | request => exact ⟨more, rfl⟩
    | hold => exact ⟨h.session.rules :: more, List.append_assoc ..⟩

end Hosted

theorem InForce.findSome? {events : List Event} {fetch : Fetcher} (current : InForce events fetch)
    (sheets : List Page.Stylesheet) :
    events.reverse.findSome? (·.sets? sheets) = some (SourceMap.resolve fetch sheets) := by
  obtain ⟨before, e, after, rfl, loads, quiet⟩ := current
  refine List.findSome?_eq_some_iff.mpr ⟨after.reverse, e, before.reverse, by simp, loads.sets?, ?_⟩
  intro e' he'
  exact Event.sets?_eq_none_iff.mpr (quiet e' (List.mem_reverse.mp he'))

theorem findSome?_of_not_inForce {events : List Event} (none : ∀ fetch, ¬ InForce events fetch)
    (sheets : List Page.Stylesheet) :
    (events.reverse.findSome? (·.sets? sheets)).getD ∅ = ∅ := by
  cases found : events.reverse.findSome? (·.sets? sheets) with
  | none => rfl
  | some r =>
    obtain ⟨after, e, before, split, sets, quiet⟩ := List.findSome?_eq_some_iff.mp found
    rcases Event.sets?_eq_some sets with ⟨fetch, loads, -⟩ | ⟨-, rfl⟩
    · refine absurd ⟨before.reverse, e, after.reverse, ?_, loads, fun e' he' => ?_⟩ (none fetch)
      · simpa using congrArg List.reverse split
      · exact Event.sets?_eq_none_iff.mp (quiet e' (List.mem_reverse.mp he'))
    · rfl

/-- Whatever a host does, the rules in force are what the latest load came to at its
time, none without one or after a clearing; no other request changes anything. What
the host holds on to stays as it was, and the rendered text of an element is that of
the tree that would be answered for it. -/
theorem run_keeps_rules (snapshot : Page.Snapshot) (options : BuildOptions) (events : List Event) :
    let host := (Hosted.attach snapshot options).run events
    (∀ fetch, InForce events fetch →
        host.session.rules = SourceMap.resolve fetch snapshot.stylesheets) ∧
      ((∀ fetch, ¬ InForce events fetch) → host.session.rules = ∅) ∧
      (∀ fetch text, Command.read text ≠ .ok .loadSourceMaps →
        Command.read text ≠ .ok .clearSourceMaps →
        (host.session.requestText fetch text).1 = host.session) ∧
      (∀ before after, events = before ++ .hold :: after →
        let earlier := (Hosted.attach snapshot options).run before
        ∃ more, host.held = earlier.held ++ earlier.session.rules :: more) ∧
      ∀ fetch fetch' text text' path useSourceMap style,
        Command.read text = .ok (.scss path useSourceMap style) →
        Command.read text' = .ok (.styleTree path useSourceMap none) →
        (∃ h node, (Page.ofSnapshot snapshot).resolve? path = some h ∧
            (host.session.request fetch' text').2 = .tree node ∧
            (host.session.request fetch text).2 = .text (Scss.serialize style node)) ∨
          (Page.ofSnapshot snapshot).resolve? path = none ∧
            (host.session.request fetch' text').2 = .failed .elementNotFound ∧
            (host.session.request fetch text).2 = .failed .elementNotFound := by
  intro host
  have page : host.session.page = .ofSnapshot snapshot := Hosted.page_run events
  have rules : host.session.rules =
      (events.reverse.findSome? (·.sets? snapshot.stylesheets)).getD ∅ :=
    congrArg Session.rules (Hosted.session_run events)
  refine ⟨fun fetch current => ?_, fun none => ?_, fun _ _ => request_other, ?_,
    fun _ _ _ _ _ _ _ => page ▸ request_scss⟩
  · rw [rules, current.findSome?, Option.getD_some]
  · rw [rules, findSome?_of_not_inForce none]
  · rintro before after rfl earlier
    obtain ⟨more, later⟩ := (earlier.step .hold).held_run after
    refine ⟨more, ?_⟩
    rw [show host = (earlier.step .hold).run after from Hosted.run_append before _, later]
    exact List.append_assoc ..

theorem not_inForce_of_clears {events : List Event} {e : Event} (clears : e.Clears)
    (fetch : Fetcher) : ¬ InForce (events ++ [e]) fetch := by
  rintro ⟨before, e', after, split, ⟨text, rfl, load⟩, quiet⟩
  rcases List.eq_nil_or_concat after with rfl | ⟨rest, last, rfl⟩
  · obtain ⟨-, same⟩ := List.append_inj' split rfl
    obtain ⟨fetch', text', made, clear⟩ := clears
    cases (List.singleton_inj.mp same).symm.trans made
    cases load.symm.trans clear
  · rw [List.concat_eq_append, ← List.cons_append, ← List.append_assoc] at split
    obtain ⟨-, same⟩ := List.append_inj' split rfl
    cases same
    exact (quiet e (by simp)).2 clears

end Histories

/-! ## A history with two loads -/

def paragraphPage : Page.Snapshot where
  document := { tag := "p" }
  stylesheets := [.external "https://site.test/main.css"]

def withoutNetwork : Fetcher := fun url => .error (.fetch url .noNetwork)

def withSheet : Fetcher := .ofBodies (.ofList
  [("https://site.test/main.css", "p\x7bcolor:red\x7d\n/*# sourceMappingURL=main.css.map */")])

def loading : String := "\x7b\"action\":\"loadSourceMaps\"\x7d"
def clearing : String := "\x7b\"action\":\"clearSourceMaps\"\x7d"
def askingTree : String := "\x7b\"action\":\"buildStyleTree\",\"xpath\":\"/p[1]\"\x7d"
def askingScss : String := "\x7b\"action\":\"renderSass\",\"xpath\":\"/p[1]\"\x7d"
def cutOff : String := "\x7b\"action\""

/-- A load without a network, one with it, and a text that is no request. -/
def reloads : List Event :=
  [.request withoutNetwork loading, .request withSheet loading, .hold,
   .request withoutNetwork cutOff]

theorem run_keeps_rules_of_reloads :
    let start := Hosted.attach paragraphPage {}
    let host := start.run reloads
    host.session.rules = SourceMap.resolve withSheet paragraphPage.stylesheets ∧
      (start.run (reloads ++ [.request withSheet clearing])).session.rules = ∅ ∧
      (host.session.requestText withSheet cutOff).1 = host.session ∧
      (∃ more, host.held = (start.run (reloads.take 2)).session.rules :: more) ∧
      ∃ node, (host.session.request withSheet askingTree).2 = .tree node ∧
        (host.session.request withSheet askingScss).2 = .text (Scss.serialize {} node) := by
  have load : Command.read loading = .ok .loadSourceMaps := by decide +kernel
  have clear : Command.read clearing = .ok .clearSourceMaps := by decide +kernel
  have noRequest : Command.read cutOff = .error .badJson := by decide +kernel
  have tree : Command.read askingTree = .ok (.styleTree "/p[1]" none none) := by decide +kernel
  have scss : Command.read askingScss = .ok (.scss "/p[1]" none {}) := by decide +kernel
  have current : InForce reloads withSheet := by
    refine ⟨reloads.take 1, _, reloads.drop 2, rfl, ⟨loading, rfl, load⟩, ?_⟩
    intro e he
    simp only [reloads, List.drop_succ_cons, List.drop_zero, List.mem_cons, List.not_mem_nil,
      or_false] at he
    have quiet : e.sets? [] = none := by
      rcases he with rfl | rfl
      · rfl
      · simp only [Event.sets?, noRequest]
    exact Event.sets?_eq_none_iff.mp quiet
  have clears : Event.Clears (.request withSheet clearing) := ⟨_, _, rfl, clear⟩
  obtain ⟨latest, -, other, held, rendered⟩ := run_keeps_rules paragraphPage {} reloads
  obtain ⟨-, empty, -⟩ :=
    run_keeps_rules paragraphPage {} (reloads ++ [.request withSheet clearing])
  refine ⟨latest _ current, empty (not_inForce_of_clears clears), ?_, ?_, ?_⟩
  · exact other _ _ (by simp [noRequest]) (by simp [noRequest])
  · exact held (reloads.take 2) (reloads.drop 3) rfl
  · rcases rendered withSheet withSheet _ _ _ _ _ scss tree with
      ⟨_, node, -, answered, text⟩ | ⟨missing, -⟩
    · exact ⟨node, answered, text⟩
    · exact absurd missing (by decide)

end AuthoredStyle.Session
