import PatternLint.Evaluation.Evaluator

/-! Evaluation that keeps the structure of lists: an unknown part of a construction is `nil`, and
the other parts are kept. -/

namespace PatternLint

namespace Evaluation

def orNil (v : Value) : Value :=
  if v.isUnknown then .nil else v

/-- The constructions whose parts may be unknown. -/
inductive Construction where
  | list (parts : List Value)
  | cons (head tail : Value)
  | append (parts : List Value)
  | same (part : Value)
  | template (part : Value)

def Construction.of? : Value → Option Construction
  | .list (.sym "list" :: args) => some (.list args)
  | .list [.sym "cons", a, b] => some (.cons a b)
  | .list (.sym "append" :: args) => some (.append args)
  | .list (.sym "nconc" :: args) => some (.append args)
  | .list [.sym "purecopy", a] => some (.same a)
  | .list [.sym "identity", a] => some (.same a)
  | .list [templateMark, a] => some (.template a)
  | _ => none

/-- How many calls lie between the evaluation of a construction and those of its parts. -/
def Construction.calls : Construction → Nat
  | .list _ => 2
  | .append _ | .template _ => 1
  | .cons .. | .same _ => 0

/-- Builds from parts, which `ev` evaluates. -/
def Construction.build (ev : Evaluator) (c : Construction) (env : FrameId) (scope : Scope) :
    Eval Value :=
  match c with
  | .list parts => do Eval.ofExcept (Value.ofItems (← ev.operands parts env scope))
  | .cons a b => do return Value.prepend [← ev a env scope] (← ev b env scope)
  | .append parts => do
    let joined : Eval Value := do
      Eval.ofExcept (Primitive.append (← ev.operands parts env scope))
    return orNil (← Eval.orUnknown joined)
  | .same part => ev part env scope
  | .template part => do return orNil (← expand ev env scope part)

end Evaluation

/-- Structural evaluation from within some calls, with a bound on the depth of all this, under a
policy. -/
def evalStructureWithin (p : Policy) : (depth calls : Nat) → Evaluator
  | 0, _ => fun _ _ _ => throw p.tooDeep
  | depth + 1, calls + 1 => evalStructureWithin p depth calls
  | depth + 1, 0 => fun expr env scope =>
    match Evaluation.Construction.of? expr with
    | some c => c.build (evalStructureWithin p depth c.calls) env scope
    | none => do return Evaluation.orNil (← evalBy p depth expr env scope)

abbrev evalStructureBy (p : Policy) (depth : Nat) : Evaluator :=
  evalStructureWithin p depth 0

def evaluateListBy (p : Policy) (expr : Value) (env : Option FrameId) (mutables : List String)
    (defs : Definitions) (loopLimit : Nat) : Eval Value :=
  Evaluation.within (evalStructureBy p maxDepth) .nil expr env mutables defs loopLimit

/-- The value of an expression with `nil` for its unknown parts. -/
abbrev evaluateList : Value → Option FrameId → List String → Definitions → Nat → Eval Value :=
  evaluateListBy .plain

end PatternLint
