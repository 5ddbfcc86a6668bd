import AuthoredStyle.CommandLine.Run

/-!
# The program

Everything is decided by `CommandLine.runWith`, which is given a look at the file
system.
-/

namespace AuthoredStyle.CommandLine

/-- What the file system holds under a path. -/
def lookAt (path : String) : IO Finding := do
  let place ← try pure (some (← IO.FS.realPath path).toString) catch _ => pure none
  let text ← try pure (.ok (← IO.FS.readFile path)) catch _ =>
    pure (.error (if place.isSome then .unreadable else .noSuchFile))
  return ⟨text, place⟩

def runHere (args : List String) : IO UInt32 := do
  let outcome ← runWith lookAt args
  (← IO.getStdout).putStr outcome.output
  (← IO.getStderr).putStr outcome.complaint
  return .ofNat outcome.exitCode

end AuthoredStyle.CommandLine

def main (args : List String) : IO UInt32 := AuthoredStyle.CommandLine.runHere args
