import AuthoredStyle.Url.Host

/-!
# Reading addresses

An address is read on its own or relative to a base. Controls and spaces around
the text and tabs and line ends in it are dropped first. In a special address a
backslash counts as a slash. Dot segments are resolved while a path is read.
-/

namespace AuthoredStyle.Url

/-- Controls and spaces off both ends, tabs and line ends out of the middle. -/
def tidy (s : List Char) : List Char :=
  let front := s.dropWhile (· ≤ ' ')
  let both := (front.reverse.dropWhile (· ≤ ' ')).reverse
  both.filter fun c => c ≠ '\t' && c ≠ '\n' && c ≠ '\r'

def isSchemeChar (c : Char) : Bool := c.isAlphanum || c = '+' || c = '-' || c = '.'

/-- A scheme in lower case and what follows its colon. -/
def scheme? (s : List Char) : Option (List Char × List Char) :=
  match s.head?, s.dropWhile isSchemeChar with
  | some c, ':' :: rest =>
    if c.isAlpha then some (Text.lower (s.takeWhile isSchemeChar), rest) else none
  | _, _ => none

/-! ## Paths -/

def isDoubleDot (s : List Char) : Bool :=
  ["..", ".%2e", "%2e.", "%2e%2e"].contains (String.ofList (Text.lower s))

def isSingleDot (s : List Char) : Bool := [".", "%2e"].contains (String.ofList (Text.lower s))

/-- A letter and a colon, or a bar in its place. -/
def isDrive : List Char → Bool
  | [c, d] => c.isAlpha && (d = ':' || d = '|')
  | _ => false

def isTidyDrive : List Char → Bool
  | [c, ':'] => c.isAlpha
  | _ => false

/-- The path without its last segment; a drive is never dropped. -/
def shorten (file : Bool) (path : List (List Char)) : List (List Char) :=
  match path with
  | [drive] => if file && isTidyDrive drive then path else []
  | _ => path.dropLast

/-- One more segment; the last one of a text leaves an empty segment in place of
its dots. -/
def addSegment (file : Bool) (path : List (List Char)) (segment : List Char) (last : Bool) :
    List (List Char) :=
  if isDoubleDot segment then
    let path := shorten file path
    if last then path ++ [[]] else path
  else if isSingleDot segment then
    if last then path ++ [[]] else path
  else
    match file, path, segment with
    | true, [], [c, d] => if isDrive [c, d] then [[c, ':']] else [[c, d]]
    | _, _, _ => path ++ [segment]

def isSlash (special : Bool) (c : Char) : Bool := c = '/' || (special && c = '\\')

/-- Path text behind its first slash, on top of a path. -/
def addPath (scheme : List Char) (path : List (List Char)) (s : List Char) : List (List Char) :=
  let file := isFile scheme
  let segments := (Text.fields (isSlash (isSpecial scheme)) s).map (escape inPath)
  let count := segments.length
  let added := segments.zipIdx.foldl (fun p (segment, i) =>
    addSegment file p segment (i + 1 = count)) path
  if file then
    match added.dropWhile (·.isEmpty) with
    | [] => [[]]
    | rest => rest
  else added

/-- The text in front of a query or fragment, and the rest. -/
def splitTail (s : List Char) : List Char × List Char := s.span fun c => c ≠ '?' && c ≠ '#'

/-- The query and fragment that follow a path. -/
def tails (scheme : List Char) : List Char → Option (List Char) × Option (List Char)
  | '#' :: s => (none, some (escape inFragment s))
  | '?' :: s =>
    let (query, rest) := s.span (· ≠ '#')
    let set := if isSpecial scheme then inSpecialQuery else inQuery
    (some (escape set query), match rest with
      | '#' :: s => some (escape inFragment s)
      | _ => none)
  | _ => (none, none)

def withTails (u : Url) (s : List Char) : Url :=
  let (query, fragment) := tails u.scheme s
  { u with query := query, fragment := fragment }

/-- Path, query and fragment behind an authority. -/
def withPathText (u : Url) (s : List Char) : Url :=
  let (path, rest) := splitTail s
  let body := match path with
    | c :: body => if isSlash (isSpecial u.scheme) c then body else path
    | [] => []
  let path := if path.isEmpty && !isSpecial u.scheme then [] else addPath u.scheme [] body
  withTails { u with path := .segments path } rest

/-! ## Authorities -/

def isAuthorityEnd (special : Bool) (c : Char) : Bool :=
  c = '/' || c = '?' || c = '#' || (special && c = '\\')

/-- Host text and what follows it, a colon inside brackets passed over. -/
def hostSpan (inside : Bool) : List Char → List Char × List Char
  | [] => ([], [])
  | c :: s =>
    if c = ':' && !inside then ([], c :: s)
    else
      let (host, rest) := hostSpan (if c = '[' then true else if c = ']' then false else inside) s
      (c :: host, rest)

def port? (scheme : List Char) : List Char → Except Error (Option Nat)
  | [] => .ok none
  | s =>
    match Decimal.whole? s with
    | some n =>
      if 65535 < n then .error .invalidPort
      else .ok (if defaultPort? scheme = some n then none else some n)
    | none => .error .invalidPort

/-- User name and password in front of the last at sign. -/
def userinfo (s : List Char) : List Char × List Char :=
  let (name, rest) := s.span (· ≠ ':')
  (escape inUserinfo name, escape inUserinfo (rest.drop 1))

/-- What stands behind the two slashes of an address that is no file. -/
def afterSlashes (scheme : List Char) (s : List Char) : Except Error Url := do
  let special := isSpecial scheme
  let (authority, rest) := s.span fun c => !isAuthorityEnd special c
  let (user, hostPort) := match Text.cutLast? '@' authority with
    | some (user, hostPort) => (some user, hostPort)
    | none => (none, authority)
  if user.isSome && hostPort.isEmpty && (!rest.isEmpty || special || user ≠ some []) then
    .error .emptyHost
  let (hostText, portText) := hostSpan false hostPort
  if hostText.isEmpty && (special || !portText.isEmpty) then .error .emptyHost
  let host ← if special then host? hostText else plainHost? hostText
  let port ← port? scheme (portText.drop 1)
  let (username, password) := match user with
    | some user => userinfo user
    | none => ([], [])
  return withPathText
    { scheme := scheme, username := username, password := password, host := some host,
      port := port }
    rest

/-! ## Files -/

def isFileSlash (c : Char) : Bool := c = '/' || c = '\\'

/-- A drive at the start of path text, at the end of a segment. -/
def startsWithDrive (s : List Char) : Bool :=
  isDrive (s.take 2) && (s.drop 2).head?.all fun c => isFileSlash c || c = '?' || c = '#'

def fileUrl (host : List Char) (path : List (List Char)) (rest : List Char) : Url :=
  withTails { scheme := fileScheme, host := some host, path := .segments path } rest

/-- What stands behind the two slashes of a file address. A drive in the place
of the host belongs to the path, and the local host is no host. -/
def fileAfterSlashes (s : List Char) : Except Error Url := do
  let (hostText, rest) := s.span fun c => !(isFileSlash c || c = '?' || c = '#')
  if isDrive hostText then
    let (path, rest) := splitTail s
    return fileUrl [] (addPath fileScheme [] path) rest
  else
    let host ← if hostText.isEmpty then .ok [] else host? hostText
    let host := if host = "localhost".toList then [] else host
    let (path, rest) := splitTail rest
    let path := addPath fileScheme [] (path.drop 1)
    let host := if path.head?.any isTidyDrive then [] else host
    return fileUrl host path rest

def segmentsOf (u : Url) : List (List Char) :=
  match u.path with
  | .segments list => list
  | .opaquePath _ => []

/-- A file address from the text behind its scheme, or relative to another one. -/
def fileAddress (base : Option Url) (s : List Char) : Except Error Url :=
  match s with
  | a :: s' =>
    if isFileSlash a then
      match s' with
      | b :: s'' => if isFileSlash b then fileAfterSlashes s'' else .ok (fromRoot s')
      | [] => .ok (fromRoot s')
    else .ok (relative s)
  | [] => .ok (relative s)
where
  fromRoot (s : List Char) : Url :=
    let (path, rest) := splitTail s
    match base.filter fun _ => !startsWithDrive s with
    | some b =>
      let drive := (segmentsOf b).take 1 |>.filter isTidyDrive
      fileUrl (if drive.isEmpty then b.host.getD [] else []) (addPath fileScheme drive path) rest
    | none => fileUrl [] (addPath fileScheme [] path) rest
  relative (s : List Char) : Url :=
    let (path, rest) := splitTail s
    match base with
    | some b =>
      if path.isEmpty then
        match rest with
        | '?' :: _ => withTails b rest
        | _ => { b with fragment := (tails fileScheme rest).2 }
      else if startsWithDrive s then fileUrl [] (addPath fileScheme [] path) rest
      else withTails
        { b with path := .segments (addPath fileScheme (shorten true (segmentsOf b)) path) } rest
    | none => fileUrl [] (addPath fileScheme [] path) rest

/-! ## Whole addresses -/

def slashCount (s : List Char) : Nat := (s.takeWhile isFileSlash).length

/-- An address relative to one that is neither a file nor opaque. -/
def relativeTo (b : Url) (s : List Char) : Except Error Url :=
  let (path, rest) := splitTail s
  match path with
  | [] =>
    match rest with
    | '?' :: _ => .ok (withTails b rest)
    | _ => .ok { b with fragment := (tails b.scheme rest).2 }
  | c :: body =>
    if isFileSlash c then
      if 2 ≤ slashCount s then
        afterSlashes b.scheme (if s.take 2 = ['/', '/'] then s.drop 2 else s.dropWhile isFileSlash)
      else .ok (withTails { b with path := .segments (addPath b.scheme [] body) } rest)
    else
      let kept := shorten false (segmentsOf b)
      .ok (withTails { b with path := .segments (addPath b.scheme kept path) } rest)

/-- An address with a scheme of no known kind. -/
def otherAddress (scheme : List Char) (s : List Char) : Except Error Url :=
  match s with
  | '/' :: '/' :: s => afterSlashes scheme s
  | '/' :: s =>
    let (path, rest) := splitTail s
    .ok (withTails { scheme := scheme, path := .segments (addPath scheme [] path) } rest)
  | s =>
    let (path, rest) := splitTail s
    .ok (withTails { scheme := scheme, path := .opaquePath (escape inControls path) } rest)

def withScheme (base : Option Url) (scheme s : List Char) : Except Error Url :=
  if isFile scheme then fileAddress (base.filter fun b => isFile b.scheme) s
  else if isSpecial scheme then
    match base.filter fun b => b.scheme = scheme && slashCount s < 2 with
    | some b => relativeTo b s
    | none => afterSlashes scheme (s.dropWhile isFileSlash)
  else otherAddress scheme s

def isOpaque (u : Url) : Bool :=
  match u.path with
  | .opaquePath _ => true
  | .segments _ => false

/-- An address, relative to a base if it has no scheme. -/
def readFrom (base : Option Url) (text : String) : Except Error Url :=
  let s := tidy text.toList
  match scheme? s with
  | some (scheme, rest) => withScheme base scheme rest
  | none =>
    match base with
    | none => .error .noBase
    | some b =>
      match s with
      | '#' :: fragment => .ok { b with fragment := some (escape inFragment fragment) }
      | _ =>
        if b.isOpaque then .error .opaqueBase
        else if isFile b.scheme then fileAddress base s
        else relativeTo b s

def read (text : String) : Except Error Url := readFrom none text

def join (base : Url) (reference : String) : Except Error Url := readFrom (some base) reference

/-! ## Paths of files -/

/-- The path of the file that an address names: its segments, unescaped. An
address with a host other than the local one names no file. -/
def filePath? (u : Url) : Option String :=
  let isLocal := u.host.all fun h => h.isEmpty || h = "localhost".toList
  match u.path with
  | .segments list =>
    if isLocal then utf8? (list.flatMap fun s => 0x2F :: unescape s) else none
  | .opaquePath _ => none

/-- The address of a file, given its path from the root. -/
def ofFilePath (path : String) : String :=
  let names := (Text.fields (· = '/') path.toList).filter (!·.isEmpty)
  let escaped := names.map (escape inPathSegment)
  "file://" ++ String.ofList (escaped.flatMap ('/' :: ·))

end AuthoredStyle.Url
