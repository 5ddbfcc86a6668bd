import AuthoredStyle.Proofs.Session.History
import AuthoredStyle.Proofs.SourceMap.Provenance

/-!
# The rules that sessions hold

A load reads each stylesheet by itself and puts the rules together, so whatever a session
has in force, and whatever its host holds on to, is well formed. Each plain rule is from a
file that the same load knows.
-/

namespace AuthoredStyle

namespace Session

open SourceMap (Resolution)
open Sheet (RuleSet)

namespace Hosted

variable [Libraries]

/-- All that the session and its host have of rules. -/
def resolutions (h : Hosted) : List Resolution := h.session.rules :: h.held

theorem mem_resolutions_step {h : Hosted} {e : Event} {r : Resolution}
    (mem : r ∈ (h.step e).resolutions) :
    r ∈ h.resolutions ∨ e.sets? h.session.page.stylesheets = some r := by
  rcases List.mem_cons.mp mem with rfl | mem
  · rw [session_step]
    cases sets : e.sets? h.session.page.stylesheets with
    | none => exact .inl List.mem_cons_self
    | some r => exact .inr rfl
  · cases e with
    | request => exact .inl (List.mem_cons_of_mem _ mem)
    | hold =>
      rcases List.mem_append.mp mem with mem | mem
      · exact .inl (List.mem_cons_of_mem _ mem)
      · rw [List.mem_singleton.mp mem]
        exact .inl List.mem_cons_self

theorem wellFormed_step {h : Hosted} (before : ∀ r ∈ h.resolutions, r.WellFormed) (e : Event) :
    ∀ r ∈ (h.step e).resolutions, r.WellFormed := by
  intro r mem
  rcases mem_resolutions_step mem with old | sets
  · exact before r old
  · rcases Event.sets?_eq_some sets with ⟨fetch, -, rfl⟩ | ⟨-, rfl⟩
    · exact SourceMap.wellFormed_resolve fetch _
    · exact Resolution.wellFormed_empty

theorem wellFormed_run {h : Hosted} (before : ∀ r ∈ h.resolutions, r.WellFormed)
    (events : List Event) : ∀ r ∈ (h.run events).resolutions, r.WellFormed := by
  induction events generalizing h with
  | nil => exact before
  | cons e events ih => exact ih (wellFormed_step before e)

end Hosted

/-- What is read from any text is well formed, appending keeps that and makes nothing
well formed that was not, and so is all that a session and its host ever have. -/
theorem rules_wellFormed [Libraries] :
    (∀ text file, (Sheet.read text file).WellFormed (· = file)) ∧
      (∀ files (a b : RuleSet),
        (a ++ b).WellFormed files ↔ a.WellFormed files ∧ b.WellFormed files) ∧
      ∀ snapshot options events,
        ∀ r ∈ ((Hosted.attach snapshot options).run events).resolutions, r.WellFormed := by
  refine ⟨Sheet.wellFormed_read, fun _ _ _ => RuleSet.wellFormed_append_iff, ?_⟩
  intro snapshot options events
  refine Hosted.wellFormed_run (fun r mem => ?_) events
  rw [List.mem_singleton.mp mem]
  exact Resolution.wellFormed_empty

def notePage : Page.Snapshot where
  document := { tag := "p" }
  stylesheets := [.inline ".a\x7btop:0\x7d.a:hover\x7btop:1px\x7d/*# sourceMappingURL=a.css.map */" ""]

theorem rules_wellFormed_of_note :
    let host := (Hosted.attach notePage {}).run [.request withoutNetwork loading, .hold]
    (host.held.map fun r => (r.rules.plain.length, r.rules.hover.length)) = [(1, 1)] ∧
      ∀ r ∈ host.held, r.WellFormed := by
  intro host
  obtain ⟨-, -, kept⟩ := rules_wellFormed
  refine ⟨by decide +kernel, fun r mem => ?_⟩
  exact kept notePage {} _ r (List.mem_cons_of_mem _ mem)

end Session

end AuthoredStyle
