import AuthoredStyle.Error
import AuthoredStyle.Libraries.Basic
import AuthoredStyle.Text.Search

/-!
# Data addresses

A data address carries its text behind its first comma, as it stands or in
base64 when one of its parameters says so.
-/

namespace AuthoredStyle.SourceMap

def dataLead : List Char := "data:".toList

def isBase64Mark (parameter : List Char) : Bool := Text.lower parameter = "base64".toList

def decodeDataUrl [Libraries] (url : String) : Except Error String :=
  match Text.dropLead? dataLead url.toList with
  | none => .error (.notDataUrl url)
  | some rest =>
    match Text.cut? [','] rest with
    | none => .error .noPayload
    | some (parameters, payload) =>
      if (Text.fields (· = ';') parameters).any isBase64Mark then
        match (Libraries.base64? (Text.trim payload)).bind String.fromUTF8? with
        | some text => .ok text
        | none => .error .undecodable
      else .ok (String.ofList payload)

end AuthoredStyle.SourceMap
