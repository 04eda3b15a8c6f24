import PatternLint.Analysis.Splice
import PatternLint.Evaluation.Binding

/-! Walking through the forms of a text: where the walk is, how it goes on into parts of a form, and
what it does with variables and with values. -/

namespace PatternLint.Analysis

open Reader (Path)

/-- Where the walk is: the form at the top, the path from there, the frame of the variables bound
around, and those of them that may be assigned here, because this place is reached exactly once. -/
structure Place where
  offset : Nat
  path : Path
  env : FrameId
  mutables : List String

namespace Place

/-- The part with an index. -/
def part (p : Place) (index : Nat) : Place :=
  { p with path := index :: p.path }

/-- The same place where no variable may be assigned. -/
def fixed (p : Place) : Place :=
  { p with mutables := [] }

def site (p : Place) (expr : Value) : Site :=
  ⟨p.offset, p.path, expr⟩

end Place

/-- Visits a form at a place. -/
abbrev Visitor := Value → Place → Analyze Unit

/-- Visits the items of a form, the first of which has the given index. -/
def visitItems (visit : Visitor) (p : Place) (index : Nat) : List Value → Analyze Unit
  | [] => return
  | item :: rest => do
    visit item (p.part index)
    visitItems visit p (index + 1) rest

variable [Conduct] (doc : Document)

def valueAt (expr : Value) (p : Place) : Analyze Value :=
  value doc expr (some p.env) p.mutables

def structureAt (expr : Value) (p : Place) : Analyze Value :=
  structure? doc expr (some p.env) p.mutables

def newFrame (outer : Option FrameId) (bindings : List (String × Value)) : Analyze FrameId :=
  Analyze.run fun _ => Eval.newFrame outer bindings

def isBound (name : String) (p : Place) : Analyze Bool := do
  return (← Analyze.findings).store.frames.isBound name p.env

/-- Gives a bound variable the value of an expression, or an unknown one if it may not be assigned
here. -/
def assignAt (name : String) (expr : Value) (p : Place) : Analyze Unit := do
  let v ← if name ∈ p.mutables then valueAt doc expr p else pure .unknown
  let _ ← Analyze.run fun _ => Eval.set p.env name v

/-- Checks the patterns in the value of an expression. -/
def checkExpr (shape : Shape) (expr : Value) (name : String) (p : Place) : Analyze Unit := do
  let v ← if shape = .regexp then valueAt doc expr p else structureAt doc expr p
  (← (p.site expr).take).checkRegexps doc name (shape.patterns v)

/-- Checks what is added to a list. -/
def checkElement (shape : Shape) (expr : Value) (name : String) (p : Place) : Analyze Unit := do
  let v ← structureAt doc expr p
  (← (p.site expr).take).checkRegexps doc name (shape.elementPatterns v)

/-- The shape of the variable that a value names. -/
def shapeOfNamed (v : Value) : Analyze (Option (String × Shape)) := do
  match v with
  | .sym name => return ((← Analyze.findings).shapeOf name).map (name, ·)
  | _ => return none

/-- Complains about regexps where something else is expected. -/
def checkOrigin (head : String) (arg : Value) (p : Place) : Analyze Unit := do
  let names := (← Analyze.findings).generators arg
  reportAll doc p.offset (p.part 1).path
    (names.map fun name =>
      "\x60" ++ name ++ "' cannot be used for arguments to \x60" ++ head ++ "'")

/-- The functions that take regexps, by the positions of those arguments. -/
def regexpPositionsByName : List (String × List Nat) :=
  [("looking-at", [0]), ("looking-at-p", [0]), ("looking-back", [0]), ("re-search-forward", [0]),
    ("re-search-backward", [0]), ("search-forward-regexp", [0]), ("search-backward-regexp", [0]),
    ("string-match", [0]), ("string-match-p", [0]), ("posix-looking-at", [0]),
    ("posix-search-forward", [0]), ("posix-search-backward", [0]), ("posix-string-match", [0]),
    ("replace-regexp-in-string", [0]), ("replace-regexp", [0]), ("query-replace-regexp", [0]),
    ("keep-lines", [0]), ("flush-lines", [0]), ("how-many", [0]), ("delete-matching-lines", [0]),
    ("delete-non-matching-lines", [0]), ("count-matches", [0]), ("highlight-regexp", [0]),
    ("unhighlight-regexp", [0]), ("kill-matching-buffers", [0]), ("split-string", [1, 3]),
    ("split-string-and-unquote", [1]), ("string-trim", [1, 2]), ("string-trim-left", [1]),
    ("string-trim-right", [1]), ("directory-files", [2]), ("directory-files-and-attributes", [2]),
    ("directory-files-recursively", [1]), ("sort-regexp-fields", [1])]

def Findings.positionsOf (s : Findings) (name : String) : List Nat :=
  ((regexpPositionsByName.lookup name).or (s.regexpArguments.get? name)).getD []

/-- Checks the arguments at the given positions, except variables that were checked when they were
defined. -/
def checkArguments (head : String) (args : List Value) (p : Place) : List Nat → Analyze Unit
  | [] => return
  | position :: rest => do
    match args[position]? with
    | some arg =>
      let checked := (← Analyze.findings).checked
      if !(arg.symName?.any checked.contains) then
        match ← valueAt doc arg p with
        | .str text =>
          let site ← ((p.part (position + 1)).site arg).take
          site.check doc doc.regexps ("call to " ++ head) text
        | _ => pure ()
    | none => pure ()
    checkArguments head args p rest

/-- Checks a call of a function that takes regexps; `name` is what its head stands for. -/
def checkCall (head name : String) (args : List Value) (p : Place) : Analyze Unit := do
  checkArguments doc head args p ((← Analyze.findings).positionsOf name)

end PatternLint.Analysis
