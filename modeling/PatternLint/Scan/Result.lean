import PatternLint.Analysis.Analyzer
import PatternLint.Pattern.SkipSet
import PatternLint.Reader.Toplevel

/-! Scanning a text: reading and analyzing it. -/

namespace PatternLint.Scan

/-- What scans of one or more files gave. -/
structure Result where
  diagnostics : List Report.Diagnostic
  suppressed : Nat
  files : Nat
  deriving Repr, DecidableEq

namespace Result

def empty : Result :=
  ⟨[], 0, 0⟩

def add (a b : Result) : Result :=
  ⟨a.diagnostics ++ b.diagnostics, a.suppressed + b.suppressed, a.files + b.files⟩

def errors (r : Result) : Nat :=
  r.diagnostics.length

@[simp] theorem empty_add (r : Result) : empty.add r = r := by
  simp [empty, add]

@[simp] theorem add_empty (r : Result) : r.add empty = r := by
  simp [empty, add]

theorem add_assoc (a b c : Result) : (a.add b).add c = a.add (b.add c) := by
  simp [add, Nat.add_assoc]

end Result

open Analysis (Document Findings Analyze)

/-- A text with the usual checkers. -/
def document (file : String) (text : List Char) (loopLimit : Nat) : Document :=
  ⟨file, text, Pattern.Regexp.checker, Pattern.SkipSet.checker, loopLimit⟩

/-- Reports what ended the reading of the text, if that is malformed. -/
def reportFault (doc : Document) : Option Reader.Fault → Analyze Unit
  | none => return
  | some (.numeral f) => throw (.numeral f)
  | some (.malformed pos problem) =>
    Analysis.report doc ("Read error: " ++ problem.message) pos [] none
  | some (.unknownExtension pos mark) =>
    Analysis.report doc ("Read error: " ++ (Reader.Problem.badSyntax mark).message) pos [] none

/-- Reads and analyzes a text. -/
def analysis (doc : Document) : Analyze Unit := do
  let contents := Reader.read doc.text
  reportFault doc contents.fault
  Analysis.analyze doc contents.forms

/-- The diagnostics of a text, ordered by place. -/
def scan (doc : Document) : Except Fault Result :=
  match analysis doc Findings.empty with
  | (.error f, _) => .error f
  | (.ok _, s) =>
    .ok ⟨s.log.diagnostics.mergeSort fun a b => a.offset ≤ b.offset, s.log.suppressed, 1⟩

end PatternLint.Scan
