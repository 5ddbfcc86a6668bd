import AuthoredStyle.Libraries.BuiltIn
import AuthoredStyle.Proofs.Page.Unmarked
import AuthoredStyle.Session.Basic

/-!
# Markers do not show

Two documents that are alike but for marker classes, wherever they stand in whichever
class lists, are inspected alike: a host that puts the same requests to a session on
either, with the same things to be fetched at each moment, gets the same texts back. A
session is compared with the one on the page without markers. What is fetched may differ
from one request to the next, and requests that fail count like all others.
-/

namespace AuthoredStyle

/-! ## Trees -/

namespace Inspection

def unmarked (v : Inspection) : Inspection := { v with page := v.page.unmarked }

variable (v : Inspection)

theorem matching_unmarked (h : Page.Handle) : v.unmarked.matching h = v.matching h := by
  simp only [matching, unmarked, Selector.selects_unmarked]

theorem fontSize_unmarked (h : Page.Handle) : v.unmarked.fontSize h = v.fontSize h := by
  rw [fontSize, fontSize, unmarked, Page.computed_unmarked]

theorem withAuthored_unmarked (h : Page.Handle) (styles : Styles) (property : String) :
    v.unmarked.withAuthored h styles property = v.withAuthored h styles property := by
  simp only [withAuthored, fontSize_unmarked]
  simp only [unmarked, Page.computed_unmarked]

theorem authoredValues_unmarked (h : Page.Handle) (properties : List String) :
    v.unmarked.authoredValues h properties = v.authoredValues h properties := by
  have step : v.unmarked.withAuthored h = v.withAuthored h :=
    funext₂ (v.withAuthored_unmarked h)
  rw [authoredValues, authoredValues, step]

theorem styles_unmarked (h : Page.Handle) : v.unmarked.styles h = v.styles h := by
  simp only [styles, matching_unmarked, authoredValues_unmarked]
  rfl

theorem normalized_unmarked (h : Page.Handle) (declared : Styles) :
    v.unmarked.normalized h declared = v.normalized h declared := by
  simp only [normalized, fontSize_unmarked]

theorem pseudo_unmarked (h : Page.Handle) : v.unmarked.pseudo h = v.pseudo h := by
  simp only [pseudo, normalized_unmarked]
  simp only [unmarked, Selector.selects_unmarked]

theorem media_unmarked (h : Page.Handle) : v.unmarked.media h = v.media h := by
  simp only [media, normalized_unmarked]
  simp only [unmarked, Selector.selects_unmarked]

theorem hover_unmarked (h : Page.Handle) : v.unmarked.hover h = v.hover h := by
  simp only [hover, normalized_unmarked]
  simp only [unmarked, Selector.selects_unmarked]

theorem node_unmarked (h : Page.Handle) (path : String) (depth : Nat) :
    v.unmarked.node h path depth = v.node h path depth := by
  simp only [node, styles_unmarked, pseudo_unmarked, media_unmarked, hover_unmarked]
  simp only [unmarked, Page.tag_unmarked, Page.id?_unmarked, Page.classes_unmarked]

theorem ordinals_unmarked (met : Dict Nat) (siblings : List Page.Handle) :
    v.unmarked.ordinals met siblings = v.ordinals met siblings := by
  have tag (c : Page.Handle) : v.unmarked.page.tag c = v.page.tag c := v.page.tag_unmarked c
  induction siblings generalizing met with
  | nil => rfl
  | cons c siblings ih => simp only [ordinals, tag, ih]

theorem treeFrom_unmarked (room : Nat) (h : Page.Handle) (path : String) (depth : Nat) :
    v.unmarked.treeFrom room h path depth = v.treeFrom room h path depth := by
  induction room generalizing h path depth with
  | zero => exact v.node_unmarked h path depth
  | succ room ih =>
    have child (c : Page.Handle) (ordinal : Nat) :
        v.unmarked.childPath path c ordinal = v.childPath path c ordinal := by
      rw [childPath, childPath, unmarked, Page.tag_unmarked]
    have children : v.unmarked.page.children h = v.page.children h := v.page.children_unmarked h
    simp only [treeFrom, node_unmarked, ordinals_unmarked, children, child, ih]

theorem tree_unmarked (maxDepth : Nat) (h : Page.Handle) :
    v.unmarked.tree maxDepth h = v.tree maxDepth h := by
  rw [tree, tree, treeFrom_unmarked]
  exact congrArg (v.treeFrom maxDepth h · 0) (v.page.pathOf_unmarked h)

end Inspection

/-! ## Requests -/

namespace Session

open SourceMap (Fetcher)

def unmarked (s : Session) : Session := { s with page := s.page.unmarked }

/-- The texts that are sent for some requests, each with what can be fetched at its time. -/
def answers [Libraries] (s : Session) : List (Fetcher × String) → List String
  | [] => []
  | (fetch, text) :: requests =>
    let (s', sent) := s.requestText fetch text
    sent :: s'.answers requests

variable (s : Session)

theorem element_unmarked (path : String) : s.unmarked.element path = s.element path := by
  rw [element, element, unmarked, Page.resolve?_unmarked]

theorem elementInfo_unmarked (h : Page.Handle) : s.unmarked.elementInfo h = s.elementInfo h := by
  simp only [elementInfo, unmarked, Page.tag_unmarked, Page.id?_unmarked, Page.classes_unmarked,
    Page.children_unmarked]

theorem styleTree_unmarked (path : String) (options : BuildOptions) :
    s.unmarked.styleTree path options = s.styleTree path options := by
  have inspection : s.unmarked.inspection options.useSourceMap =
      (s.inspection options.useSourceMap).unmarked := rfl
  simp only [styleTree, element_unmarked, inspection, Inspection.tree_unmarked]

theorem scss_unmarked (path : String) (options : BuildOptions) (style : Scss.Options) :
    s.unmarked.scss path options style = s.scss path options style := by
  rw [scss, scss, styleTree_unmarked]

/-- One command is answered alike, and what it leaves behind differs by markers alone. -/
theorem handle_unmarked [Libraries] (fetch : Fetcher) (c : Command) :
    s.unmarked.handle fetch c = ((s.handle fetch c).1.unmarked, (s.handle fetch c).2) := by
  cases c with
  | loadSourceMaps | clearSourceMaps | sourceMapStatus => rfl
  | styleTree path useSourceMap maxDepth =>
    rw [handle, styleTree_unmarked]
    rfl
  | elementInfo path =>
    rw [handle, element_unmarked, funext s.elementInfo_unmarked]
    rfl
  | scss path useSourceMap style =>
    rw [handle, scss_unmarked]
    rfl

theorem request_unmarked [Libraries] (fetch : Fetcher) (text : String) :
    s.unmarked.request fetch text =
      ((s.request fetch text).1.unmarked, (s.request fetch text).2) := by
  rw [request, request]
  cases Command.read text with
  | ok c => exact s.handle_unmarked fetch c
  | error e => rfl

theorem answers_unmarked [Libraries] (requests : List (Fetcher × String)) :
    s.unmarked.answers requests = s.answers requests := by
  induction requests generalizing s with
  | nil => rfl
  | cons r requests ih =>
    simp only [answers, requestText, request_unmarked, ih]

/-- Markers are not to be seen in any answer, whatever is asked and in whichever order. -/
theorem answers_same_of_unmarked [Libraries] (document document' : Page.ElementSnapshot)
    (stylesheets : List Page.Stylesheet) (options : BuildOptions)
    (alike : document.unmarked = document'.unmarked) (requests : List (Fetcher × String)) :
    answers { page := .ofSnapshot ⟨document, stylesheets⟩, options := options } requests =
      answers { page := .ofSnapshot ⟨document', stylesheets⟩, options := options } requests := by
  have page : (Page.ofSnapshot ⟨document, stylesheets⟩).unmarked =
      (Page.ofSnapshot ⟨document', stylesheets⟩).unmarked := by
    rw [← Page.ofSnapshot_unmarked, alike, Page.ofSnapshot_unmarked]
  let on (d : Page.ElementSnapshot) : Session :=
    { page := .ofSnapshot ⟨d, stylesheets⟩, options := options }
  calc (on document).answers requests = (on document).unmarked.answers requests :=
        (answers_unmarked _ requests).symm
    _ = (on document').unmarked.answers requests :=
        congrArg (fun p => answers { page := p, options := options } requests) page
    _ = (on document').answers requests := answers_unmarked _ requests

/-! ## A paragraph that the inspector has marked -/

def lead : Page.ElementSnapshot where
  tag := "p"
  classes := ["lead"]
  computed := .ofList [("color", "red")]

/-- The marker stands in front of the class that a stylesheet knows. -/
def markedLead : Page.ElementSnapshot :=
  { lead with classes := ["element-inspector-hover", "lead", "element-inspector-selected"] }

def leadSheet : Fetcher := .ofBodies (.ofList
  [("https://site.test/main.css", ".lead\x7bcolor:red\x7d\n/*# sourceMappingURL=main.css.map */")])

def askingLead : List (Fetcher × String) :=
  [(leadSheet, "\x7b\"action\":\"loadSourceMaps\"\x7d"),
   (leadSheet, "\x7b\"action\":\"buildStyleTree\",\"xpath\":\"/p[1]\"\x7d"),
   (leadSheet, "\x7b\"action\":\"getElementInfo\",\"xpath\":\"/p[1]\"\x7d")]

theorem answers_same_of_marked_lead :
    lead ≠ markedLead ∧ lead.unmarked = markedLead.unmarked ∧
      answers { page := .ofSnapshot ⟨lead, [.external "https://site.test/main.css"]⟩ } askingLead =
        answers { page := .ofSnapshot ⟨markedLead, [.external "https://site.test/main.css"]⟩ }
          askingLead := by
  have classes : lead.classes.filter (!Page.isMarker ·) =
      markedLead.classes.filter (!Page.isMarker ·) := by decide +kernel
  have alike : lead.unmarked = markedLead.unmarked :=
    congrArg (Page.ElementSnapshot.mk "p" none · lead.computed []) classes
  have differ : lead ≠ markedLead :=
    fun same => absurd (congrArg (·.classes.length) same) (by decide)
  exact ⟨differ, alike, answers_same_of_unmarked lead markedLead _ {} alike askingLead⟩

end Session

end AuthoredStyle
