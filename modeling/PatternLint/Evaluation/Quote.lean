import PatternLint.Evaluation.Scope
import PatternLint.Primitive.Basic

/-! Quoted data, closures, and templates in which marked parts are evaluated. -/

namespace PatternLint.Evaluation

/-- Marks a template. -/
@[match_pattern] def templateMark : Value := .sym "\x60"

/-- Marks a part of a template that is evaluated. -/
@[match_pattern] def unquoteMark : Value := .sym ","

/-- Marks a part of a template whose items are put in place of it. -/
@[match_pattern] def spliceMark : Value := .sym ",@"

@[match_pattern] def lambdaMark : Value := .sym "lambda"

def isUnquote : Value → Bool
  | .list [unquoteMark, _] => true
  | .list [spliceMark, _] => true
  | _ => false

/-- Quoted data. A form to be filled into a template is not data. -/
def quote : Handler := fun args _ _ =>
  match args with
  | [v] => return if isUnquote v then .unknown else v
  | _ => return .unknown

/-- A quoted function; a lambda expression becomes a closure. -/
def function : Handler := fun args env _ =>
  match args with
  | [.list (lambdaMark :: formals :: body)] => Eval.closure formals body env
  | [v] => return if isUnquote v then .unknown else v
  | _ => return .unknown

def lambda : Handler := fun args env _ =>
  match args with
  | formals :: body => Eval.closure formals body env
  | [] => return .unknown

variable (ev : Evaluator) (env : FrameId) (scope : Scope)

mutual

/-- Fills in a template. If any marked part is unknown, so is the whole; templates in templates are
not supported. -/
def expand (template : Value) : Eval Value :=
  match template with
  | .list items => expandList items
  | .vec items => do
    let v ← expandList items
    if v.isUnknown then return .unknown else return .vec (← Eval.ofExcept v.asList)
  | .dotted items tail => do
    let head ← expandList items
    let rest ← expand tail
    if head.isUnknown || rest.isUnknown then return .unknown
    else return Value.prepend (← Eval.ofExcept head.asList) rest
  | v => return v

def expandList (items : List Value) : Eval Value :=
  match items with
  | templateMark :: _ => return .unknown
  | spliceMark :: _ => return .unknown
  | items => expandItems [] items

/-- The expansions of items behind those of the items before them, which are given in reverse. A
mark before the last item makes that item the tail. -/
def expandItems (out : List Value) (items : List Value) : Eval Value :=
  match items with
  | [] => return Value.ofList out.reverse
  | [unquoteMark, form] => do
    let tail ← ev form env scope
    return if tail.isUnknown then .unknown else Value.prepend out.reverse tail
  | .list [spliceMark, form] :: rest => do
    let v ← ev form env scope
    if v.isUnknown then return .unknown
    else Eval.withResult v.asList fun more => expandItems (more.reverse ++ out) rest
  | item :: rest => do
    let v ← expand item
    if v.isUnknown then return .unknown else expandItems (v :: out) rest

end

def template : Handler := fun args env scope =>
  match args with
  | [v] => do
    let v ← expand ev env scope v
    return if v.isNil then .nil else v
  | _ => return .unknown

end PatternLint.Evaluation
