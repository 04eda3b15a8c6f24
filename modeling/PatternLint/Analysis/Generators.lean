import PatternLint.Analysis.Document

/-! Where a value may come from: the functions and variables known to give regexps that an
expression may take its value from. Nothing found means that nothing is known. -/

namespace PatternLint.Analysis

/-- Functions whose value is a regexp. -/
def generatorNames : List String :=
  ["regexp-quote", "regexp-opt", "regexp-opt-charset", "rx", "rx-to-string", "wildcard-to-regexp"]

/-- Functions that take a regexp and return something else. -/
def consumerNames : List String :=
  ["looking-at", "looking-at-p", "looking-back", "re-search-forward", "re-search-backward",
    "search-forward-regexp", "search-backward-regexp", "string-match", "string-match-p",
    "posix-looking-at", "posix-search-forward", "posix-search-backward", "posix-string-match",
    "replace-regexp-in-string", "replace-regexp", "query-replace-regexp", "keep-lines",
    "flush-lines", "how-many", "delete-matching-lines", "delete-non-matching-lines",
    "count-matches", "highlight-regexp", "unhighlight-regexp", "kill-matching-buffers",
    "split-string", "split-string-and-unquote", "string-trim", "string-trim-left",
    "string-trim-right", "directory-files", "directory-files-and-attributes",
    "directory-files-recursively", "sort-regexp-fields", "skip-chars-forward",
    "skip-chars-backward", "skip-syntax-forward", "skip-syntax-backward", "regexp-opt-depth",
    "length", "equal", "string=", "string-equal", "match-string", "match-beginning", "match-end"]

namespace Findings

variable (s : Findings)

/-- The shape of a global variable. -/
def shapeOf (name : String) : Option Shape :=
  (s.checked.get? name).or (shapeOfName name)

/-- How a call bears on where its value comes from. -/
inductive Origin where
  | quoted
  | generator (name : String)
  | consumer
  | body (name : String) (d : Definition)
  | arguments

def origin (head : String) : Origin :=
  if head = "quote" ∨ head = "function" then .quoted
  else
    let name := s.defs.resolve head
    if name ∈ generatorNames ∨ name ∈ s.regexpReturning then .generator name
    else if name ∈ consumerNames then .consumer
    else match s.defs.functions.get? name with
      | some d => .body name d
      | none => .arguments

variable (expand : String → Definition → List String)

mutual
/-- The generators of an expression, where `expand` gives those of a call of a definition. -/
def generatorsBy (expr : Value) : List String :=
  match expr with
  | .sym name => if s.shapeOf name = some .regexp then [name] else []
  | .list (.sym head :: args) =>
    match s.origin head with
    | .quoted | .consumer => []
    | .generator name => [name]
    | .body name d => expand name d
    | .arguments => generatorsOfAll args
  | _ => []
def generatorsOfAll (exprs : List Value) : List String :=
  match exprs with
  | [] => []
  | expr :: rest => generatorsBy expr ++ generatorsOfAll rest
end

/-- The generators of an expression; `expanded` definitions are not entered again, so that no more
definitions can be entered inside one another than there are. -/
def generatorsWithin : Nat → List String → Value → List String
  | 0, _ => fun _ => []
  | fuel + 1, expanded => s.generatorsBy fun name d =>
    if name ∈ expanded then []
    else match d.body.getLast? with
      | some form => generatorsWithin fuel (name :: expanded) form
      | none => []

/-- The names of the generators of an expression, in order. -/
def generators (expr : Value) : List String :=
  ((s.generatorsWithin (s.defs.functions.entries.length + 1) [] expr).mergeSort
    fun a b => a ≤ b).eraseReps

end Findings

end PatternLint.Analysis
