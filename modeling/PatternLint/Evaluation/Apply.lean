import PatternLint.Evaluation.Policy
import PatternLint.Evaluation.Quote
import PatternLint.Primitive.Table

/-! Calling functions: primitives, functions and macros that are defined in
the text, and closures. -/

namespace PatternLint.Evaluation

/-- A primitive that fails gives no known value, nor does one with an unknown argument. -/
def callPrimitive (f : Primitive) (args : List Value) : Eval Value :=
  if args.any Value.isUnknown then return .unknown
  else match f args with
    | .ok v => return v
    | .error e => if e.isContained then return .unknown else throw e

variable (p : Policy) (ev : Evaluator)

/-- Evaluates the body of a definition in frames of its own. A definition is not entered again from
inside of it. -/
def applyDefinition (name : String) (d : Definition) (args : List Value) (scope : Scope) :
    Eval Value := do
  if name ∈ scope.expanding then return .unknown
  else
    let root ← Eval.newFrame none []
    let env ← Eval.newFrame (some root) (← p.bind d.formals args)
    ev.body d.body env (scope.entering name root (LambdaList.names d.formals))

/-- Expands a macro, and evaluates the expansion in its place. -/
def expandMacro (name : String) (d : Definition) : Handler := fun args env scope => do
  let expansion ← applyDefinition p ev name d args scope
  if expansion.isUnknown then return .unknown
  else ev expansion env (scope.expandingToo name)

def applyClosure (formals : Value) (body : List Value) (frame : Option FrameId) (args : List Value)
    (scope : Scope) : Eval Value := do
  let home ← p.home frame scope
  let env ← Eval.newFrame (some home) (← p.bind formals args)
  ev.body body env (scope.binding (LambdaList.names formals))

/-- Something that can be called. -/
inductive Callee where
  | closure (formals : Value) (body : List Value) (frame : Option FrameId)
  | defined (name : String) (d : Definition)
  | primitive (p : Primitive)

/-- What a function value stands for: a closure, a lambda expression, or the name of a function. -/
def callee? (scope : Scope) : Value → Option Callee
  | .closure formals body frame _ => some (.closure formals body frame)
  | .list (lambdaMark :: formals :: body) => some (.closure formals body none)
  | .sym name =>
    let name := scope.defs.resolve name
    match scope.defs.functions.get? name with
    | some d => some (.defined name d)
    | none => (Primitive.named? name).map .primitive
  | _ => none

def Callee.apply (callee : Callee) (args : List Value) (scope : Scope) : Eval Value :=
  match callee with
  | .closure formals body frame => applyClosure p ev formals body frame args scope
  | .defined name d => applyDefinition p ev name d args scope
  | .primitive f => callPrimitive f args

end PatternLint.Evaluation
