import AuthoredStyle.Page.Static
import AuthoredStyle.Session.Basic

/-!
# From a document to SCSS

A static page is inspected once: its source maps are loaded, and the style tree
of one element is built from what they yield.
-/

namespace AuthoredStyle.Extraction

variable [Libraries]

/-- A session on a static page, its source maps loaded. -/
def session (fetch : SourceMap.Fetcher) (base html : String) : Except Error Session := do
  let page ← Page.Static.load fetch base html
  return Session.load { page := page } fetch

def tree (fetch : SourceMap.Fetcher) (base html path : String) (options : BuildOptions) :
    Except Error StyleNode := do
  (← session fetch base html).styleTree path options

def scss (fetch : SourceMap.Fetcher) (base html path : String) (options : BuildOptions)
    (written : Scss.Options) : Except Error String := do
  return Scss.serialize written (← tree fetch base html path options)

end AuthoredStyle.Extraction
