import PatternLint.Evaluation.LambdaList
import PatternLint.Evaluation.Scope

/-! The points of an evaluation at which it touches its surroundings. A policy says what happens
there; the plain one is the language, others add checks to it. -/

namespace PatternLint

namespace Evaluation

/-- Variables that the evaluation bound are changed in place. Those that its caller lets it assign
are shadowed in the root frame, and so are all others, by an unknown value. -/
def assign (name : String) (v : Value) (env : FrameId) (scope : Scope) : Eval Unit := do
  if name ∈ scope.mutables then
    if ← Eval.set env name v then return
    else Eval.define scope.root name v
  else if name ∈ scope.outerMutables then Eval.define scope.root name v
  else Eval.define scope.root name .unknown

end Evaluation

/-- `operand` evaluates operands whose value may be unknown without the whole being so, `bind` binds
parameters, and `home` tells in which frame a function runs. -/
structure Policy where
  tooDeep : Fault
  operand : Evaluator → Evaluator
  assign : String → Value → FrameId → Scope → Eval Unit
  bind : Value → List Value → Eval (List (String × Value))
  home : Option FrameId → Scope → Eval FrameId

/-- The policy of the language itself. -/
def Policy.plain : Policy where
  tooDeep := .tooDeep
  operand ev := ev
  assign := Evaluation.assign
  bind formals args := return LambdaList.bind formals args
  home frame scope := return frame.getD scope.root

end PatternLint
