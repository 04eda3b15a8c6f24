import PatternLint.CommandLine.Arguments
import PatternLint.Scan.Entry

/-! Running the command line: what is printed, and with which status it ends. -/

namespace PatternLint.CommandLine

structure Outcome where
  status : Nat
  output : String
  deriving Repr, DecidableEq

def versionText : String :=
  "relint 1.0.0\n"

def usageText : String :=
  "usage: relint [-h] [-q] [-v] [--version] FILE-OR-DIR [FILE-OR-DIR ...]\n"

def helpText : String :=
  usageText ++ "\n" ++
  "Check regexps, skip sets and syntax strings in Emacs Lisp files.\n\n" ++
  "positional arguments:\n" ++
  "  FILE-OR-DIR    files to scan; directories are scanned recursively\n\n" ++
  "options:\n" ++
  "  -h, --help     show this help message and exit\n" ++
  "  -q, --quiet    do not print the summary line\n" ++
  "  -v, --verbose  log debug information\n" ++
  "  --version      show program's version number and exit\n"

def lineOf (text : String) : String :=
  text ++ "\n"

/-- The diagnostics and, unless it is not wanted, a summary. The status tells whether there are any
diagnostics. -/
def outcomeOf (r : Scan.Result) (quiet : Bool) : Outcome :=
  let diagnostics := String.join (r.diagnostics.map fun d => lineOf d.text)
  let summary := if quiet then "" else lineOf (Report.summary r.errors r.suppressed)
  ⟨if r.errors = 0 then 0 else 1, diagnostics ++ summary⟩

/-- Does what is asked for, with what the paths lead to. -/
def Request.run (settings : Settings) (find : String → Except Scan.PathFault Scan.Entry) :
    Request → Except Fault Outcome
  | .help => .ok ⟨0, helpText⟩
  | .version => .ok ⟨0, versionText⟩
  | .misuse => .ok ⟨2, ""⟩
  | .scan paths quiet => do
    let r ← Scan.scanPaths settings .empty (paths.map fun path => (path, find path))
    return outcomeOf r quiet

end PatternLint.CommandLine
