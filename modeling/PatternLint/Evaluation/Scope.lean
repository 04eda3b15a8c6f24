import PatternLint.Evaluation.Eval

/-! Where an expression is evaluated: the definitions that are in force, and which variables may be
assigned. -/

namespace PatternLint

/-- A function or macro. The body is without documentation and declarations. -/
structure Definition where
  formals : Value
  body : List Value
  deriving Inhabited

structure Definitions where
  functions : Table Definition
  macros : Table Definition
  aliases : Table String
  deriving Inhabited

namespace Definitions

def empty : Definitions :=
  ⟨.empty, .empty, .empty⟩

/-- Most links of aliases that are followed. -/
def maxLinks : Nat := 16

/-- Follows at most `fuel` links, up to a name that was seen before. -/
def follow (aliases : Table String) : Nat → List String → String → String
  | 0, _, name => name
  | fuel + 1, seen, name =>
    match aliases.get? name with
    | none => name
    | some target =>
      if target ∈ seen then name else follow aliases fuel (target :: seen) target

/-- What a name stands for in the end. -/
def resolve (defs : Definitions) (name : String) : String :=
  follow defs.aliases maxLinks [name] name

end Definitions

/-- `root` is the frame for assignments to variables that the evaluation did not bind itself;
`mutables` are the names that it bound, `outerMutables` those that its caller lets it assign, and
`expanding` the functions and macros that it is inside of. -/
structure Scope where
  defs : Definitions
  root : FrameId
  mutables : List String
  outerMutables : List String
  expanding : List String
  loopLimit : Nat

namespace Scope

def binding (scope : Scope) (names : List String) : Scope :=
  { scope with mutables := names ++ scope.mutables }

/-- Inside the body of a function or macro. -/
def entering (scope : Scope) (name : String) (root : FrameId) (names : List String) : Scope :=
  { scope with
    root := root
    mutables := names
    outerMutables := []
    expanding := name :: scope.expanding }

def expandingToo (scope : Scope) (name : String) : Scope :=
  { scope with expanding := name :: scope.expanding }

end Scope

/-- Evaluates an expression as seen from a frame. -/
abbrev Evaluator := Value → FrameId → Scope → Eval Value

/-- Evaluates the operands of a form. -/
abbrev Handler := List Value → FrameId → Scope → Eval Value

namespace Evaluator

/-- A default for what is too deep. -/
def orDefault (ev : Evaluator) (default : Value) : Evaluator := fun expr env scope =>
  Eval.orDefault default (ev expr env scope)

/-- The value of the last form. The other ones are evaluated for effect, but have to be known. -/
def body (ev : Evaluator) : Handler := fun forms env scope =>
  match forms with
  | [] => return .nil
  | [form] => ev form env scope
  | form :: rest => do
    let v ← ev form env scope
    if v.isUnknown then return .unknown else body ev rest env scope

/-- Evaluates forms for effect, and tells whether all of them are known. -/
def run (ev : Evaluator) (forms : List Value) (env : FrameId) (scope : Scope) : Eval Bool :=
  match forms with
  | [] => return true
  | form :: rest => do
    let v ← ev form env scope
    if v.isUnknown then return false else run ev rest env scope

/-- The values of all operands, known or not. -/
def operands (ev : Evaluator) (args : List Value) (env : FrameId) (scope : Scope) :
    Eval (List Value) :=
  args.mapM fun arg => ev arg env scope

/-- The values of operands, up to the first that is unknown. -/
def knownOnto (ev : Evaluator) (values : List Value) (args : List Value) (env : FrameId)
    (scope : Scope) : Eval (Option (List Value)) :=
  match args with
  | [] => return some values.reverse
  | arg :: rest => do
    let v ← ev arg env scope
    if v.isUnknown then return none else knownOnto ev (v :: values) rest env scope

/-- The values of all operands, if they are known. -/
def known (ev : Evaluator) (args : List Value) (env : FrameId) (scope : Scope) :
    Eval (Option (List Value)) :=
  knownOnto ev [] args env scope

end Evaluator

end PatternLint
