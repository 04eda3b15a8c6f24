import PatternLint.Evaluation.SpecialForm

/-! Evaluation of expressions. Special forms, definitions of the text and primitives are all that is
ever run; whatever else is met is unknown. Nothing outside the frames that an evaluation makes
itself is changed, apart from global variables, which get their value when it is first asked for. -/

namespace PatternLint

namespace Evaluation

variable (p : Policy) (ev : Evaluator)

/-- The value of the expression of a global variable, in a root frame of its own. Once
the evaluation has begun, what is too deep is unknown; if there is no room to begin,
it is too deep itself. -/
def findValue (expr : Value) (root : FrameId) (scope : Scope) : Eval Value := do
  let scope : Scope := ⟨scope.defs, root, [], [], [], scope.loopLimit⟩
  let _ ← p.operand ev .nil root scope
  p.operand (ev.orDefault .unknown) expr root scope

/-- The value of a global variable, whose expression is evaluated on first use. While that goes on,
the variable is unknown. -/
def globalValue (name : String) (scope : Scope) : Eval Value := do
  match ← Eval.global? name with
  | none => return .unknown
  | some (.known v) => return v
  | some (.busy _) => return .unknown
  | some (.pending expr) => do
    Eval.putGlobal name (.busy expr)
    let root ← Eval.newFrame none []
    match ← Eval.attempt (findValue p ev expr root scope) with
    | .ok v => do
      Eval.putGlobal name (.known v)
      return v
    | .error f => do
      Eval.putGlobal name (.pending expr)
      throw f

/-- The value of a symbol. -/
def variableValue (name : String) (env : FrameId) (scope : Scope) : Eval Value := do
  if name = "nil" then return .nil
  else if name = "t" ∨ Value.isKeywordName name then return .sym name
  else match ← Eval.lookup? name env with
    | some v => return v
    | none => globalValue p ev name scope

/-- The value of a call. A macro or function of the text comes before a special form that is only
reached through an alias. -/
def callByName (head : String) : Handler := fun args env scope => do
  match SpecialForm.named? head with
  | some form => form.run p ev args env scope
  | none =>
    let name := scope.defs.resolve head
    match scope.defs.macros.get? name, scope.defs.functions.get? name with
    | some d, _ => expandMacro p ev name d args env scope
    | none, some d => do
      applyDefinition p ev name d (← (p.operand ev).operands args env scope) scope
    | none, none =>
      match SpecialForm.named? name, Primitive.named? name with
      | some form, _ => form.run p ev args env scope
      | none, none => return .unknown
      | none, some f => do
        match ← ev.known args env scope with
        | none => return .unknown
        | some values => callPrimitive f values

/-- One step of evaluation, which leaves subexpressions to `ev`. -/
def step : Evaluator := fun expr env scope =>
  match expr with
  | .sym name => variableValue p ev name env scope
  | .dotted .. => return .unknown
  | .list (.sym head :: args) => callByName p ev head args env scope
  | .list (.list (lambdaMark :: formals :: body) :: args) => do
    let values ← (p.operand ev).operands args env scope
    applyClosure p ev formals body (some env) values scope
  | .list (_ :: _) => return .unknown
  | v => return v

end Evaluation

/-- Evaluation with a bound on its depth, under a policy. -/
def evalBy (p : Policy) : Nat → Evaluator
  | 0 => fun _ _ _ => throw p.tooDeep
  | depth + 1 => Evaluation.step p (evalBy p depth)

abbrev eval : Nat → Evaluator :=
  evalBy .plain

namespace Evaluation

/-- Evaluates in a fresh root frame inside `env`, with a default for what is too deep. -/
def within (ev : Evaluator) (default : Value) (expr : Value) (env : Option FrameId)
    (mutables : List String) (defs : Definitions) (loopLimit : Nat) : Eval Value := do
  let root ← Eval.newFrame env []
  ev.orDefault default expr root ⟨defs, root, [], mutables, [], loopLimit⟩

end Evaluation

def evaluateBy (p : Policy) (expr : Value) (env : Option FrameId) (mutables : List String)
    (defs : Definitions) (loopLimit : Nat) : Eval Value :=
  Evaluation.within (evalBy p maxDepth) .unknown expr env mutables defs loopLimit

/-- The value of an expression as far as it is known. The frame `env` and those around it keep their
bindings. -/
abbrev evaluate : Value → Option FrameId → List String → Definitions → Nat → Eval Value :=
  evaluateBy .plain

end PatternLint
