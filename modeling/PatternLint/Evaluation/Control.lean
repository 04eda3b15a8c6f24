import PatternLint.Evaluation.Scope
import PatternLint.Primitive.Basic

/-! Conditionals, sequences and loops. A condition that is unknown makes the whole form unknown. -/

namespace PatternLint.Evaluation

variable (ev : Evaluator)

def ifThenElse : Handler := fun args env scope =>
  match args with
  | test :: yes :: no => do
    let v ← ev test env scope
    if v.isUnknown then return .unknown
    else if v.isNil then ev.body no env scope
    else ev yes env scope
  | _ => return .unknown

/-- Evaluates the body if the test holds, or if it does not. -/
def when (holds : Bool) : Handler := fun args env scope =>
  match args with
  | test :: forms => do
    let v ← ev test env scope
    if v.isUnknown then return .unknown
    else if v.isNil == holds then return .nil
    else ev.body forms env scope
  | [] => return .unknown

/-- The first clause whose test holds decides. Without a body its value is that of the test. -/
def cond : Handler := fun clauses env scope =>
  match clauses with
  | [] => return .nil
  | .nil :: rest => cond rest env scope
  | .list (test :: forms) :: rest => do
    let v ← ev test env scope
    if v.isUnknown then return .unknown
    else if v.isNil then cond rest env scope
    else if forms.isEmpty then return v
    else ev.body forms env scope
  | _ => return .unknown

def andFrom (last : Value) : Handler := fun args env scope =>
  match args with
  | [] => return last
  | arg :: rest => do
    let v ← ev arg env scope
    if v.isUnknown then return .unknown
    else if v.isNil then return .nil
    else andFrom v rest env scope

def and : Handler :=
  andFrom ev (.sym "t")

def or : Handler := fun args env scope =>
  match args with
  | [] => return .nil
  | arg :: rest => do
    let v ← ev arg env scope
    if v.isUnknown then return .unknown
    else if v.isNil then or rest env scope
    else return v

/-- The value of the form at an index, after all forms were evaluated. -/
def valueOfNth (index : Nat) : Handler := fun args env scope => do
  if args.length ≤ index then return .unknown
  match ← ev.known args env scope with
  | none => return .unknown
  | some values => return (values[index]?).getD .unknown

/-- At most `fuel` rounds; a loop that is still running then counts as completed. -/
def loop (test : Value) (forms : List Value) (env : FrameId) (scope : Scope) : Nat → Eval Value
  | 0 => return .nil
  | fuel + 1 => do
    let v ← ev test env scope
    if v.isUnknown then return .unknown
    else if v.isNil then return .nil
    else if ← ev.run forms env scope then loop test forms env scope fuel
    else return .unknown

def «while» : Handler := fun args env scope =>
  match args with
  | test :: forms => loop ev test forms env scope scope.loopLimit
  | [] => return .unknown

/-- The variable of a counted loop, what it runs over, and the form for its result. -/
structure LoopHead where
  name : String
  range : Value
  result : List Value

def LoopHead.of? : Value → Option LoopHead
  | .list [.sym name, range] => some ⟨name, range, []⟩
  | .list [.sym name, range, result] => some ⟨name, range, [result]⟩
  | _ => none

/-- Evaluates forms once for each value of a variable; tells whether all of them are known. -/
def forEach (name : String) (values : List Value) (forms : List Value) (frame : FrameId)
    (scope : Scope) : Eval Bool :=
  match values with
  | [] => return true
  | v :: rest => do
    Eval.define frame name v
    if ← ev.run forms frame scope then forEach name rest forms frame scope else return false

/-- A loop over values, and its result once the variable has its last value. -/
def loopOver (head : LoopHead) (values : List Value) (last : Value) (forms : List Value)
    (env : FrameId) (scope : Scope) : Eval Value := do
  let frame ← Eval.newFrame (some env) []
  let inner := scope.binding [head.name]
  if ← forEach ev head.name values forms frame inner then
    Eval.define frame head.name last
    ev.body head.result frame inner
  else return .unknown

def doList : Handler := fun args env scope =>
  match args with
  | [] => return .unknown
  | head :: forms =>
    match LoopHead.of? head with
    | none => return .unknown
    | some head => do
      let seq ← ev head.range env scope
      if seq.isUnknown then return .unknown
      else Eval.withResult seq.asSequence fun items => loopOver ev head items .nil forms env scope

def doTimes : Handler := fun args env scope =>
  match args with
  | [] => return .unknown
  | head :: forms =>
    match LoopHead.of? head with
    | none => return .unknown
    | some head => do
      match ← ev head.range env scope with
      | .int count =>
        if count > maxLength then return .unknown
        else
          let values := (List.range count.toNat).map fun i => Value.int (i : Nat)
          loopOver ev head values (.int count.toNat) forms env scope
      | _ => return .unknown

end PatternLint.Evaluation
