import AuthoredStyle.Decimal.Numeral
import AuthoredStyle.StyleTree.Build
import AuthoredStyle.StyleTree.Scss

/-!
# Command line arguments

The arguments name one input document and, in any order, settings that take a
value and switches that take none. A setting's value follows behind `=` or as
the next argument. What stands behind `--` is never an option. Arguments are
read from left to right, and the first one that is wrong decides; a request for
help counts when nothing before it is wrong.
-/

namespace AuthoredStyle.CommandLine

/-- What the options say. -/
structure Choices where
  path : String := "/html[1]/body[1]"
  base : Option String := none
  build : BuildOptions := {}
  written : Scss.Options := {}
  asJson : Bool := false
  deriving DecidableEq, Repr

structure Arguments where
  input : String
  choices : Choices := {}
  deriving DecidableEq, Repr

/-- Why arguments are refused. -/
inductive Misuse where
  | noInput
  | unexpected (argument : String)
  | noValue (option : String)
  | unwantedValue (option value : String)
  | repeated (option : String)
  | badDepth (value : String)
  deriving DecidableEq, Repr

def Misuse.message : Misuse → String
  | noInput => "the following required arguments were not provided:\n  <INPUT>"
  | unexpected argument => "unexpected argument '" ++ argument ++ "' found"
  | noValue option => "a value is required for '--" ++ option ++ "' but none was supplied"
  | unwantedValue option value =>
    "unexpected value '" ++ value ++ "' for '--" ++ option ++ "' found; no more were expected"
  | repeated option => "the argument '--" ++ option ++ "' cannot be used multiple times"
  | badDepth value => "invalid value '" ++ value ++ "' for '--depth <DEPTH>'"

/-! ## Options -/

/-- Options with a value. -/
def settings : List String := ["xpath", "base-url", "depth"]

/-- Options without a value. -/
def switches : List String :=
  ["no-source-map", "no-media-mixins", "no-hover-mixin", "no-font-size-mixin", "json"]

def Choices.set (c : Choices) (option value : String) : Except Misuse Choices :=
  match option with
  | "xpath" => .ok { c with path := value }
  | "base-url" => .ok { c with base := some value }
  | "depth" =>
    match Decimal.word? value.toList with
    | some n => .ok { c with build := { c.build with maxDepth := n } }
    | none => .error (.badDepth value)
  | _ => .error (.unexpected ("--" ++ option))

def Choices.switch (c : Choices) (option : String) : Choices :=
  match option with
  | "no-source-map" => { c with build := { c.build with useSourceMap := false } }
  | "no-media-mixins" => { c with written := { c.written with media := false } }
  | "no-hover-mixin" => { c with written := { c.written with hover := false } }
  | "no-font-size-mixin" => { c with written := { c.written with fontSize := false } }
  | "json" => { c with asJson := true }
  | _ => c

/-! ## Reading -/

/-- What has been read so far. -/
structure Progress where
  input : Option String := none
  choices : Choices := {}
  seen : List String := []
  /-- A setting whose value comes next. -/
  waiting : Option String := none

/-- The form of one argument. -/
inductive Form where
  /-- The mark after which no argument is an option. -/
  | ending
  | word (text : String)
  | long (option : String) (value : Option String)
  /-- Letters behind a single dash. -/
  | short (letters : List Char)
  deriving DecidableEq, Repr

def formOf (argument : String) : Form :=
  match argument.toList with
  | ['-', '-'] => .ending
  | '-' :: '-' :: s =>
    match Text.cut? ['='] s with
    | some (option, value) => .long (String.ofList option) (some (String.ofList value))
    | none => .long (String.ofList s) none
  | '-' :: c :: s => .short (c :: s)
  | _ => .word argument

inductive Request where
  | run (arguments : Arguments)
  | help
  deriving DecidableEq, Repr

namespace Progress

def addInput (p : Progress) (text : String) : Except Misuse Progress :=
  match p.input with
  | none => .ok { p with input := some text }
  | some _ => .error (.unexpected text)

/-- Each option is given once. -/
def mark (p : Progress) (option : String) : Except Misuse Progress :=
  if p.seen.contains option then .error (.repeated option)
  else .ok { p with seen := option :: p.seen }

def set (p : Progress) (option value : String) : Except Misuse Progress := do
  let choices ← p.choices.set option value
  return { ← p.mark option with choices := choices }

def switch (p : Progress) (option : String) : Except Misuse Progress := do
  return { ← p.mark option with choices := p.choices.switch option }

def finish (p : Progress) : Except Misuse Request :=
  match p.waiting, p.input with
  | some option, _ => .error (.noValue option)
  | none, some input => .ok (.run ⟨input, p.choices⟩)
  | none, none => .error .noInput

/-- A long option; a setting without a value is left waiting for the next argument. -/
def long (p : Progress) (option : String) (value : Option String) : Except Misuse Progress :=
  if settings.contains option then
    match value with
    | some v => p.set option v
    | none => .ok { p with waiting := some option }
  else if switches.contains option then
    match value with
    | some v => .error (.unwantedValue option v)
    | none => p.switch option
  else .error (.unexpected ("--" ++ option))

end Progress

def readFrom (p : Progress) : List String → Except Misuse Request
  | [] => p.finish
  | a :: rest =>
    match p.waiting, formOf a with
    | some option, .word value => do
      readFrom (← { p with waiting := none }.set option value) rest
    | some option, _ => .error (.noValue option)
    | none, .ending => do (← rest.foldlM Progress.addInput p).finish
    | none, .word text => do readFrom (← p.addInput text) rest
    | none, .short ('h' :: _) => .ok .help
    | none, .short _ => .error (.unexpected a)
    | none, .long "help" none => .ok .help
    | none, .long "help" (some value) => .error (.unwantedValue "help" value)
    | none, .long option value => do readFrom (← p.long option value) rest

/-- What the arguments behind the program's name ask for. -/
def read (args : List String) : Except Misuse Request := readFrom {} args

/-! ## Help -/

def usage : String := "Usage: stylecast [OPTIONS] <INPUT>\n"

def help : String :=
  "Reconstruct the authored SCSS behind an element of an HTML page\n\n" ++ usage ++
  "\nArguments:\n" ++
  "  <INPUT>  Input HTML file\n" ++
  "\nOptions:\n" ++
  "      --xpath <XPATH>        Element to start from [default: /html[1]/body[1]]\n" ++
  "      --base-url <BASE_URL>  URL stylesheet links resolve against. " ++
    "Defaults to the input's file:// URL\n" ++
  "      --depth <DEPTH>        Levels of descendants to include [default: 5]\n" ++
  "      --no-source-map        Use the full property allow-list instead of authored properties\n" ++
  "      --no-media-mixins      \n" ++
  "      --no-hover-mixin       \n" ++
  "      --no-font-size-mixin   \n" ++
  "      --json                 Print the style tree as JSON instead of SCSS\n" ++
  "  -h, --help                 Print help\n"

end AuthoredStyle.CommandLine
