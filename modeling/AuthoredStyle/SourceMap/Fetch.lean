import AuthoredStyle.Dict
import AuthoredStyle.SourceMap.DataUrl

/-!
# Fetching text by address

A fetcher answers an address with a text or a failure, and always the same way.
It is a function, so what it stands on, bodies in memory or files that were
read before, is chosen by whoever makes it.
-/

namespace AuthoredStyle.SourceMap

abbrev Fetcher := String → Except Error String

namespace Fetcher

def ofBodies (bodies : Dict String) : Fetcher := fun url =>
  match bodies.get? url with
  | some body => .ok body
  | none => .error (.fetch url .notServed)

end Fetcher

variable [Libraries]

/-- The path of the file that an address names. -/
def filePath? (url : String) : Option String :=
  match Libraries.readAddress url with
  | .ok address => Libraries.filePath? address
  | .error _ => none

namespace Fetcher

/-- Files only, through a function that reads a file by its path. -/
def ofFiles (readFile : String → Except FetchFailure String) : Fetcher := fun url =>
  match filePath? url with
  | none => .error (.fetch url .notAFile)
  | some path =>
    match readFile path with
    | .ok text => .ok text
    | .error failure => .error (.fetch url failure)

/-- Data addresses are decoded, files are read, and nothing else is in reach. -/
def byScheme (readFile : String → Except FetchFailure String) : Fetcher := fun url =>
  if Text.hasLead dataLead url.toList then decodeDataUrl url
  else if Text.hasLead "file:".toList url.toList then ofFiles readFile url
  else .error (.fetch url .noNetwork)

end Fetcher

/-- An address relative to a base; one that stands on its own passes through. -/
def resolveUrl (base reference : String) : Except Error String :=
  match Libraries.readAddress reference with
  | .ok address => .ok (Libraries.addressText address)
  | .error _ =>
    match Libraries.readAddress base with
    | .error e => .error (.badUrl base e)
    | .ok address =>
      match Libraries.joinAddress address reference with
      | .ok joined => .ok (Libraries.addressText joined)
      | .error e => .error (.badUrl reference e)

end AuthoredStyle.SourceMap
