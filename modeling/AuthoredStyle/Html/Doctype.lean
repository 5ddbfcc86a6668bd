import AuthoredStyle.Html.Token

/-!
# Doctypes of old documents

A document without a doctype, or with one that is malformed or names an old
version of the language, is read the old way: a table does not end a paragraph.
-/

namespace AuthoredStyle.Html

/-- What a public identifier of an old version goes on with behind its owner. -/
def oldVersions : List String :=
  ["html 2.", "html 3", "html level ", "html strict", "html//", "html 4.0 frameset//",
   "html 4.0 transitional//", "html experimental ", "html extended ", "w3 html"]

def namesOldVersion (publicId : List Char) : Bool :=
  match Text.cut? "//dtd ".toList publicId with
  | some (_, version) => oldVersions.any fun v => v.toList.isPrefixOf version
  | none => publicId = "html".toList

/-- A version that is old only when no system identifier is given. -/
def namesHalfOldVersion (publicId : List Char) : Bool :=
  match Text.cut? "//dtd ".toList publicId with
  | some (_, version) =>
    ["html 4.01 frameset//", "html 4.01 transitional//"].any fun v => v.toList.isPrefixOf version
  | none => false

/-- Whether the document is read the old way. -/
def Doctype.isOld (d : Doctype) : Bool :=
  let publicId := (d.publicId.map fun p => Text.lower p.toList).getD []
  d.malformed || d.name ≠ some "html" || namesOldVersion publicId ||
    (d.systemId.isNone && namesHalfOldVersion publicId)

end AuthoredStyle.Html
