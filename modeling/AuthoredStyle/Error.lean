import AuthoredStyle.Url.Basic

/-!
# Failures

Every way in which a request or a fetch can fail, with the wording that is
reported. Malformed JSON is reported without detail.
-/

namespace AuthoredStyle

inductive FetchFailure where
  /-- No body is served for the address. -/
  | notServed
  /-- The address names no file. -/
  | notAFile
  | noSuchFile
  /-- The file is there but cannot be read as text. -/
  | unreadable
  /-- The network is out of reach. -/
  | noNetwork
  deriving DecidableEq, Repr

def FetchFailure.reason : FetchFailure → String
  | notServed => "HTTP 404"
  | notAFile => "not a file URL"
  | noSuchFile => "No such file or directory (os error 2)"
  | unreadable => "unreadable file"
  | noNetwork => "network unreachable"

inductive Error where
  | fetch (url : String) (failure : FetchFailure)
  | notDataUrl (url : String)
  | noPayload
  /-- A payload that is no base64, or whose bytes are no text. -/
  | undecodable
  | badUrl (reference : String) (error : Url.Error)
  | badSourceMap
  | noRootElement
  | elementNotFound
  | unknownCommand (action : String)
  | badJson
  deriving DecidableEq, Repr

namespace Error

def parseError (detail : String) : String := "parse error: " ++ detail

def message : Error → String
  | fetch url failure => "failed to fetch " ++ url ++ ": " ++ failure.reason
  | notDataUrl url => parseError ("not a data URL: " ++ url)
  | noPayload => parseError "data URL without payload"
  | undecodable => parseError "undecodable payload"
  | badUrl reference error => parseError (reference ++ ": " ++ error.message)
  | badSourceMap => parseError "malformed source map"
  | noRootElement => parseError "document has no root element"
  | elementNotFound => "Element not found"
  | unknownCommand action => "Unknown command: " ++ action
  | badJson => "JSON error"

end Error

end AuthoredStyle
