import PatternLint.Analysis.Naming
import PatternLint.Evaluation.Structure
import PatternLint.Pattern.Problem
import PatternLint.Report.Log

/-! What an analysis is given, and what it finds out. -/

namespace PatternLint.Analysis

open Reader (Path)

/-- A text to be analyzed, and how the patterns in it are checked. -/
structure Document where
  file : String
  text : List Char
  regexps : Pattern.Checker
  skipSets : Pattern.Checker
  loopLimit : Nat

/-- `checked` holds the variables whose definition was checked, with their shapes. -/
structure Findings where
  defs : Definitions
  regexpArguments : Table (List Nat)
  regexpReturning : List String
  checked : Table Shape
  store : Store
  log : Report.Log
  deriving Inhabited

def Findings.empty : Findings :=
  ⟨.empty, .empty, [], .empty, .empty, .empty⟩

/-- An analysis changes the findings, and may end in a fault. -/
abbrev Analyze := ExceptT Fault (StateM Findings)

namespace Analyze

def findings : Analyze Findings := fun s =>
  (.ok s, s)

def change (f : Findings → Findings) : Analyze Unit := fun s =>
  (.ok (), f s)

/-- Evaluates with the definitions found so far. -/
def run (m : Definitions → Eval α) : Analyze α := fun s =>
  let store := s.store
  let s := { s with store := .empty }
  match m s.defs store with
  | (r, store) => (r, { s with store := store })

/-- Gives up where it turns out that something lies too deep. -/
def untilTooDeep (m : Analyze Unit) : Analyze Unit := fun s =>
  match m s with
  | (.error .tooDeep, s) => (.ok (), s)
  | other => other

end Analyze

variable (doc : Document)

/-- The value of an expression. -/
def value (expr : Value) (env : Option FrameId) (mutables : List String) : Analyze Value :=
  Analyze.run fun defs => evaluate expr env mutables defs doc.loopLimit

/-- The value of an expression with `nil` for its unknown parts. -/
def structure? (expr : Value) (env : Option FrameId) (mutables : List String) : Analyze Value :=
  Analyze.run fun defs => evaluateList expr env mutables defs doc.loopLimit

/-- Records the expression that defines a global variable, to be evaluated when it is needed. A
second definition is evaluated at once, while the value before is still in force. -/
def defineGlobal (name : String) (expr : Value) : Analyze Unit := do
  if (← Analyze.findings).store.globals.contains name then
    let v ← value doc expr none []
    Analyze.run fun _ => Eval.putGlobal name (.known v)
  else Analyze.run fun _ => Eval.putGlobal name (.pending expr)

/-- Reports a message about a part of the form at `offset`, or about a character of the string
literal that this part is. -/
def report (message : String) (offset : Nat) (path : Path) (index : Option Int) : Analyze Unit := do
  let place : Except Text.Numeral.Fault Nat := do
    let pos ← Reader.resolve doc.text offset path
    match index with
    | some i => Reader.stringPosition doc.text pos i
    | none => return pos
  match place with
  | .ok pos => Analyze.change fun s => { s with log := s.log.add doc.file doc.text pos message }
  | .error f => throw (.numeral f)

end PatternLint.Analysis
