import PatternLint.Reader.Position
import PatternLint.Report.Suppression

/-! Diagnostics, and the log that collects them. The same message is logged once for a place, and
not at all if it is suppressed. -/

namespace PatternLint.Report

structure Diagnostic where
  file : String
  offset : Nat
  line : Nat
  column : Nat
  message : String
  deriving Repr, DecidableEq

def Diagnostic.text (d : Diagnostic) : String :=
  s!"{d.file}:{d.line}:{d.column}: {d.message}"

/-- Diagnostics in order, the number of suppressed ones, and the places and messages of both. -/
structure Log where
  diagnostics : List Diagnostic
  suppressed : Nat
  seen : List (Nat × String)
  deriving Repr, Inhabited

def Log.empty : Log :=
  ⟨[], 0, []⟩

/-- Logs a message about a place of a text. -/
def Log.add (log : Log) (file : String) (text : List Char) (offset : Nat)
    (message : String) : Log :=
  if (offset, message) ∈ log.seen then log
  else
    let (line, column) := Reader.lineColumn text offset
    let seen := (offset, message) :: log.seen
    if isSuppressed (lines text) line message then ⟨log.diagnostics, log.suppressed + 1, seen⟩
    else ⟨log.diagnostics ++ [⟨file, offset, line, column, message⟩], log.suppressed, seen⟩

theorem Log.add_of_mem {log : Log} {file : String} {text : List Char} {offset : Nat}
    {message : String} (h : (offset, message) ∈ log.seen) :
    log.add file text offset message = log := by
  simp [Log.add, h]

/-- Every report is either logged or suppressed. -/
theorem Log.length_add {log : Log} {file : String} {text : List Char} {offset : Nat}
    {message : String} (h : (offset, message) ∉ log.seen) :
    let log' := log.add file text offset message
    log'.diagnostics.length + log'.suppressed = log.diagnostics.length + log.suppressed + 1 := by
  simp only [Log.add, h, if_false]
  split <;> simp <;> omega

end PatternLint.Report
