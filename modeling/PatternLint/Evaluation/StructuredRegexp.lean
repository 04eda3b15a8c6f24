import PatternLint.Evaluation.Scope
import PatternLint.Rx.Write

/-! Structured regexps in code. Clauses whose argument is computed are replaced by its value before
it is written. -/

namespace PatternLint.Evaluation

/-- Clauses with an argument that is evaluated. -/
def dynamicClauses : List String :=
  ["eval", "literal", "regexp", "regex"]

/-- Clauses whose arguments are characters, never clauses. -/
def characterClauses : List String :=
  ["any", "in", "char", "not-char", "syntax", "not-syntax", "category"]

def isDynamicClause : Value → Bool
  | .list (.sym name :: _) => name ∈ dynamicClauses
  | _ => false

variable (ev : Evaluator) (env : FrameId) (scope : Scope)

mutual

/-- A form with its dynamic clauses replaced. Literal text and regexps have to be strings, and the
value of an `eval` clause must not be a dynamic clause itself. -/
def resolveClauses (form : Value) : Eval Value :=
  match form with
  | .list (head :: args) =>
    match head, args with
    | .sym "eval", [arg] => do
      let v ← ev arg env scope
      return if isDynamicClause v then .unknown else v
    | .sym "eval", _ => return .unknown
    | .sym name, args =>
      if name ∈ characterClauses then return form
      else if name ∈ dynamicClauses then
        match args with
        | [arg] => do
          match ← ev arg env scope with
          | .str text => return .list [head, .str text]
          | _ => return .unknown
        | _ => return .unknown
      else do
        match ← resolveAll [] args with
        | none => return .unknown
        | some args => return .list (head :: args)
    | head, args => do
      match ← resolveAll [] args with
      | none => return .unknown
      | some args => return .list (head :: args)
  | form => return form

/-- None if one of the forms is unknown. -/
def resolveAll (out : List Value) (forms : List Value) : Eval (Option (List Value)) :=
  match forms with
  | [] => return some out.reverse
  | form :: rest => do
    let v ← resolveClauses form
    if v.isUnknown then return none else resolveAll (v :: out) rest

end

/-- A structured regexp that cannot be written is unknown. -/
def written (r : Except Fault String) : Eval Value :=
  match r with
  | .ok text => return .str text
  | .error (.rx _) => return .unknown
  | .error f => throw f

def rx : Handler := fun args env scope => do
  match ← resolveAll ev env scope [] args with
  | none => return .unknown
  | some forms => written (Rx.ofForms forms)

/-- The regexp of a form that is itself computed. -/
def rxToString : Handler := fun args env scope => do
  if args.isEmpty ∨ 2 < args.length then return .unknown
  match ← ev.operands args env scope with
  | form :: flags =>
    if form.isUnknown || flags.any Value.isUnknown then return .unknown
    else
      let form ← resolveClauses ev env scope form
      if form.isUnknown then return .unknown
      else written (Rx.ofForm form (flags.any fun v => !v.isNil))
  | [] => return .unknown

end PatternLint.Evaluation
