import AuthoredStyle.Session.Command
import AuthoredStyle.Session.Response
import AuthoredStyle.SourceMap.Resolution

/-!
# Inspection sessions

A session inspects one page. It keeps what the latest load of the page's
stylesheets yielded until it is cleared or loaded again; every other request
leaves it as it is. The fetcher belongs to a request, not to the session, since
what it serves may change in between.
-/

namespace AuthoredStyle

structure Session where
  page : Page
  rules : SourceMap.Resolution := ∅
  options : BuildOptions := {}

namespace Session

variable [Libraries]

def load (s : Session) (fetch : SourceMap.Fetcher) : Session :=
  { s with rules := SourceMap.resolve fetch s.page.stylesheets }

def clear (s : Session) : Session := { s with rules := ∅ }

def element (s : Session) (path : String) : Except Error Page.Handle :=
  match s.page.resolve? path with
  | some h => .ok h
  | none => .error .elementNotFound

def elementInfo (s : Session) (h : Page.Handle) : ElementInfo where
  tag := s.page.tag h
  id := (s.page.id? h).filter (· ≠ "")
  classes := s.page.classes h
  childCount := (s.page.children h).length

/-- Without any source map loaded nothing would be known to be authored, so the
tree is built without one. -/
def inspection (s : Session) (useSourceMap : Bool) : Inspection :=
  ⟨s.page, s.rules.rules, s.rules.index, useSourceMap && s.rules.index.hasSourceMap⟩

def styleTree (s : Session) (path : String) (options : BuildOptions) : Except Error StyleNode := do
  let h ← s.element path
  return (s.inspection options.useSourceMap).tree options.maxDepth h

def scss (s : Session) (path : String) (options : BuildOptions) (scss : Scss.Options) :
    Except Error String := do
  return Scss.serialize scss (← s.styleTree path options)

/-- The session's options where a request leaves them open. -/
def optionsFor (s : Session) (useSourceMap : Option Bool) (maxDepth : Option Nat) :
    BuildOptions where
  maxDepth := maxDepth.getD s.options.maxDepth
  useSourceMap := useSourceMap.getD s.options.useSourceMap

def answer (result : Except Error Response) : Response :=
  match result with
  | .ok r => r
  | .error e => .failed e

def handle (s : Session) (fetch : SourceMap.Fetcher) : Command → Session × Response
  | .loadSourceMaps =>
    let loaded := s.load fetch
    (loaded, .loaded loaded.rules.index)
  | .clearSourceMaps => (s.clear, .done)
  | .sourceMapStatus => (s, .sourceMapStatus s.rules.index)
  | .styleTree path useSourceMap maxDepth =>
    (s, answer ((s.styleTree path (s.optionsFor useSourceMap maxDepth)).map .tree))
  | .elementInfo path => (s, answer ((s.element path).map fun h => .element (s.elementInfo h)))
  | .scss path useSourceMap options =>
    (s, answer ((s.scss path (s.optionsFor useSourceMap none) options).map .text))

/-- One request text and its answer. -/
def request (s : Session) (fetch : SourceMap.Fetcher) (text : String) : Session × Response :=
  match Command.read text with
  | .ok command => s.handle fetch command
  | .error e => (s, .failed e)

/-- The answer as the text that is sent. -/
def requestText (s : Session) (fetch : SourceMap.Fetcher) (text : String) : Session × String :=
  let (s, response) := s.request fetch text
  (s, Libraries.jsonText response.toJson)

end Session

end AuthoredStyle
