import AuthoredStyle.Dict

/-!
# Which properties were authored

The index keeps, for each compiled file with a source map, the properties that
its source declares, and the union over all files beside it.
-/

namespace AuthoredStyle.SourceMap

structure Index where
  byFile : Dict NameSet := ∅
  all : NameSet := ∅
  deriving DecidableEq

namespace Index

instance : EmptyCollection Index := ⟨{}⟩
instance : Inhabited Index := ⟨∅⟩

def file? (i : Index) (file : String) : Option NameSet := i.byFile.get? file

/-- The properties join those already known of the file. -/
def insert (i : Index) (file : String) (authored : NameSet) : Index where
  byFile := i.byFile.insert file (((i.file? file).getD ∅) ∪ authored)
  all := i.all ∪ authored

/-- Some stylesheet carried a source map. -/
def hasSourceMap (i : Index) : Bool := !i.byFile.isEmpty

def propertyCount (i : Index) : Nat := i.all.size

end Index

end AuthoredStyle.SourceMap
