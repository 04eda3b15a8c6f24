import PatternLint.CommandLine.Run

/-! The program: it reads the files that the command line names, and prints what the scan finds. -/

namespace PatternLint.CommandLine

/-- Reads a file, or a folder with all that is in it apart from hidden entries. -/
partial def readEntry (path : String) : IO Scan.Entry := do
  let place := System.mkFilePath [path]
  if ← place.isDir then
    let names := (← place.readDir).toList.map fun e => e.fileName
    let visible := names.filter fun name => !Scan.Entry.isHidden name
    return .folder (← visible.mapM fun name => do
      return (name, ← readEntry (Scan.Entry.pathOf path name)))
  else
    return .file ((← IO.FS.readBinFile place).toList.map fun b => b.toNat)

/-- What a path leads to, or why it leads nowhere. -/
def lookUp (path : String) : IO (Except Scan.PathFault Scan.Entry) := do
  try
    return .ok (← readEntry path)
  catch
    | .noFileOrDirectory .. => return .error .missing
    | .inappropriateType .. => return .error .notFolder
    | e => throw e

/-- Settings that the environment gives. -/
def readSettings : IO Settings := do
  return .ofEnvironment (← IO.getEnv "RELINT_LOOP_LIMIT") (← IO.getEnv "RELINT_FILE_SUFFIXES")

/-- Prints the outcome and gives the status to end with. -/
def execute (args : List String) : IO UInt32 := do
  let request := parse args
  let found ← request.paths.mapM fun path => return (path, ← lookUp path)
  let find (path : String) := (found.lookup path).getD (.error .missing)
  match request.run (← readSettings) find with
  | .ok outcome =>
    IO.print outcome.output
    if request = .misuse then IO.eprint usageText
    return outcome.status.toUInt32
  | .error _ =>
    IO.eprintln "A file could not be analyzed."
    return 1

end PatternLint.CommandLine

def main (args : List String) : IO UInt32 :=
  PatternLint.CommandLine.execute args
