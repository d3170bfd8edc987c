import ApiContract.CommandLine.Basic
/-!
# The program

The command line on the files of this machine. A command runs on the files that have been read so
far; when it ends because one was missing and there is such a file, that file is read and the command
runs again.
-/

open ApiContract

/-- What stands at a path of this machine. -/
def readEntry (path : String) : IO (Option FileEntry) := do
  let place := (← IO.currentDir) / path
  if ← place.isDir then return some .directory
  else if ← place.pathExists then
    return some (.file (← IO.FS.readBinFile place).toList)
  else return none

/-- Run a command and read the files that it asks for. -/
partial def runOn (tree : FileTree) (arguments : List String) : IO CommandLine.Outcome := do
  let outcome := CommandLine.run tree arguments
  match outcome.missing with
  | none => return outcome
  | some path =>
    match ← readEntry path with
    | none => return outcome
    | some entry =>
      let tree := tree.withEntry path entry
      if (tree.entry? path).isSome then runOn tree arguments else return outcome

def main (arguments : List String) : IO UInt32 := do
  let here := ((← IO.currentDir).toString.splitOn "/").filter fun part => part != ""
  let outcome ← runOn ⟨here, [], []⟩ arguments
  IO.print outcome.stdout
  IO.eprint outcome.stderr
  return UInt32.ofNat outcome.code
