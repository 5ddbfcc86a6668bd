import AuthoredStyle.Url.Percent

/-!
# Addresses

An address has a scheme and either an opaque path or a path of segments, and
perhaps an authority, a query and a fragment. All parts are kept in their
escaped form; `text` writes the whole address.
-/

namespace AuthoredStyle

namespace Url

inductive Path where
  | opaquePath (text : List Char)
  | segments (list : List (List Char))
  deriving DecidableEq

inductive Error where
  | emptyHost
  | invalidDomainName
  | invalidPort
  | invalidIpv4
  | invalidIpv6
  | invalidHostCharacter
  | noBase
  | opaqueBase
  deriving DecidableEq, Repr

def Error.message : Error → String
  | emptyHost => "empty host"
  | invalidDomainName => "invalid international domain name"
  | invalidPort => "invalid port number"
  | invalidIpv4 => "invalid IPv4 address"
  | invalidIpv6 => "invalid IPv6 address"
  | invalidHostCharacter => "invalid domain character"
  | noBase => "relative URL without a base"
  | opaqueBase => "relative URL with a cannot-be-a-base base"

end Url

structure Url where
  scheme : List Char
  username : List Char := []
  password : List Char := []
  host : Option (List Char) := none
  port : Option Nat := none
  path : Url.Path := .segments []
  query : Option (List Char) := none
  fragment : Option (List Char) := none
  deriving DecidableEq

namespace Url

def fileScheme : List Char := "file".toList

/-- Schemes whose addresses always have a host and a path, with their ports. -/
def specialPorts : List (List Char × Nat) :=
  [("http".toList, 80), ("https".toList, 443), ("ws".toList, 80), ("wss".toList, 443),
   ("ftp".toList, 21)]

def defaultPort? (scheme : List Char) : Option Nat := specialPorts.lookup scheme

def isFile (scheme : List Char) : Bool := scheme = fileScheme

def isSpecial (scheme : List Char) : Bool := isFile scheme || (defaultPort? scheme).isSome

def credentials (u : Url) : List Char :=
  let password := if u.password.isEmpty then [] else ':' :: u.password
  if u.username.isEmpty && password.isEmpty then [] else u.username ++ password ++ ['@']

def authority (u : Url) : List Char :=
  match u.host with
  | none => []
  | some host =>
    let port := match u.port with
      | some n => ':' :: Nat.toDigits 10 n
      | none => []
    '/' :: '/' :: (u.credentials ++ host ++ port)

/-- A path without authority never looks like one. -/
def pathText (u : Url) : List Char :=
  match u.path with
  | .opaquePath text => text
  | .segments list =>
    let text := list.flatMap fun s => '/' :: s
    if u.host.isNone && 1 < list.length && list.head? = some [] then '/' :: '.' :: text else text

def marked (mark : Char) : Option (List Char) → List Char
  | some s => mark :: s
  | none => []

def text (u : Url) : String :=
  String.ofList <|
    u.scheme ++ ':' :: (u.authority ++ u.pathText ++ marked '?' u.query ++ marked '#' u.fragment)

end Url

end AuthoredStyle
