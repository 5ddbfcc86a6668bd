import AuthoredStyle.CommandLine.Arguments
import AuthoredStyle.CommandLine.Files
import AuthoredStyle.Extraction
import AuthoredStyle.Libraries.BuiltIn
import AuthoredStyle.SourceMap.Reach

/-!
# Program runs

A run reads one document and prints the SCSS of one of its elements, or its
style tree as JSON. Stylesheets, maps and sources are files too; without a base
address the document's own is the base. The files are looked at before the run
is decided: first the document, then round by round what the files known so far
lead to.
-/

namespace AuthoredStyle.CommandLine

inductive Failure where
  | unreadable (reason : FetchFailure)
  | noBase (input : String)
  | inspection (error : Error)
  deriving DecidableEq, Repr

def Failure.message : Failure → String
  | unreadable reason => "Error reading HTML file: " ++ reason.reason
  | noBase input => "Could not build a base URL for " ++ input ++ "; pass --base-url"
  | inspection error => "Error: " ++ error.message

/-- How a run ends. -/
inductive Outcome where
  | printed (text : String)
  | failed (failure : Failure)
  | misused (misuse : Misuse)
  deriving DecidableEq, Repr

namespace Outcome

def exitCode : Outcome → Nat
  | printed _ => 0
  | failed _ => 1
  | misused _ => 2

def output : Outcome → String
  | printed text => text
  | failed _ | misused _ => ""

/-- What is said beside the output. -/
def complaint : Outcome → String
  | printed _ => ""
  | failed f => f.message ++ "\n"
  | misused m => "error: " ++ m.message ++ "\n\n" ++ usage

end Outcome

variable [Libraries]

def Files.fetcher (files : Files) : SourceMap.Fetcher := .byScheme fun path => (files path).text

/-- The document and the address that its references are relative to. -/
def document (files : Files) (a : Arguments) : Except Failure (String × String) :=
  let found := files a.input
  match found.text, a.choices.base <|> found.place.map Libraries.fileAddress with
  | .error reason, _ => .error (.unreadable reason)
  | .ok _, none => .error (.noBase a.input)
  | .ok html, some base => .ok (html, base)

/-- A style tree as the choices want it printed. -/
def printed (c : Choices) (tree : StyleNode) : String :=
  if c.asJson then Libraries.jsonLines tree.toJson ++ "\n" else Scss.serialize c.written tree

def extract (files : Files) (a : Arguments) : Except Failure String := do
  let (html, base) ← document files a
  match Extraction.tree files.fetcher base html a.choices.path a.choices.build with
  | .ok tree => return printed a.choices tree
  | .error e => .error (.inspection e)

def run (files : Files) (args : List String) : Outcome :=
  match read args with
  | .error misuse => .misused misuse
  | .ok .help => .printed help
  | .ok (.run a) =>
    match extract files a with
    | .ok text => .printed text
    | .error failure => .failed failure

/-- The path of a file that an address leads to. -/
def pathAsked? (address : String) : Option String :=
  if Text.hasLead "file:".toList address.toList then SourceMap.filePath? address else none

/-- The paths that a run looks at, as far as the files that are known lead. -/
def pathsAsked (files : Files) (args : List String) : List String :=
  match read args with
  | .ok (.run a) =>
    match document files a with
    | .ok (html, base) =>
      let addresses := (Page.Static.stylesheets base html).flatMap (SourceMap.asked files.fetcher)
      a.input :: addresses.filterMap pathAsked?
    | .error _ => [a.input]
  | .ok .help | .error _ => []

/-! ## Bringing the files -/

def filesOf (known : Dict Finding) : Files := fun path => (known.get? path).getD .nothing

section Rounds

variable {m : Type → Type} [Monad m] (look : String → m Finding) (args : List String)

/-- One round looks at what is asked for and is not known yet. -/
def lookRound (known : Dict Finding) : m (Dict Finding) :=
  let paths := (pathsAsked (filesOf known) args).filter (!known.contains ·)
  paths.foldlM (fun d path => return d.insert path (← look path)) known

/-- The files that a number of rounds lead to. -/
def gather : (rounds : Nat) → Dict Finding → m (Dict Finding)
  | 0, known => return known
  | rounds + 1, known => do gather rounds (← lookRound look args known)

end Rounds

/-- Four rounds reach the document, its stylesheets, their maps and the sources. -/
def runWith {m : Type → Type} [Monad m] (look : String → m Finding) (args : List String) :
    m Outcome :=
  return run (filesOf (← gather look args 4 ∅)) args

end AuthoredStyle.CommandLine
