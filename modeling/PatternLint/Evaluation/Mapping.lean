import PatternLint.Evaluation.Apply

/-! Forms that call a function they are given. Every argument has to be known, and the first must be
something that can be called. -/

namespace PatternLint.Evaluation

variable (p : Policy) (ev : Evaluator)

/-- What a form calls, and the other arguments. -/
def call? (args : List Value) (env : FrameId) (scope : Scope) :
    Eval (Option (Callee × List Value)) := do
  match ← ev.known args env scope with
  | some (f :: values) => return (callee? scope f).map (·, values)
  | _ => return none

/-- The results of calls, given in reverse those that are there already; none if one is unknown. -/
def resultsOnto (callee : Callee) (results : List Value) (scope : Scope) :
    List (List Value) → Eval (Option (List Value))
  | [] => return some results.reverse
  | args :: rest => do
    let v ← callee.apply p ev args scope
    if v.isUnknown then return none else resultsOnto callee (v :: results) scope rest

def results (callee : Callee) (calls : List (List Value)) (scope : Scope) :
    Eval (Option (List Value)) :=
  resultsOnto p ev callee [] scope calls

/-- What becomes of the results of calling a function on every item. -/
inductive Collection where
  | items
  | spliced
  | text
  | kept (whenTrue : Bool)
  deriving Repr, DecidableEq

def Collection.collect (c : Collection) (args results : List Value) : Except Fault Value :=
  match c with
  | .items => Value.ofItems results
  | .spliced => Primitive.append (results ++ [.nil])
  | .text => Primitive.concat (results.intersperse ((args[1]?).getD (.str "")))
  | .kept whenTrue => do
    let items ← (args.headD .nil).asSequence
    Value.ofItems (((items.zip results).filter fun p => p.2.isNil != whenTrue).map (·.1))

/-- Calls a function on every item of a sequence. -/
def mapOver (c : Collection) : Handler := fun args env scope => do
  if args.length < 2 then return .unknown
  match ← call? ev args env scope with
  | some (callee, seq :: more) =>
    Eval.withResult seq.asSequence fun items => do
      match ← results p ev callee (items.map ([·])) scope with
      | none => return .unknown
      | some results => Eval.orUnknown (Eval.ofExcept (c.collect (seq :: more) results))
  | _ => return .unknown

/-- The first items, the second items and so on, up to the end of the shortest list. -/
def transpose : List (List Value) → List (List Value)
  | [] => []
  | [items] => items.map ([·])
  | items :: rest => List.zipWith (· :: ·) items (transpose rest)

/-- Calls a function on the items of several sequences at once. -/
def mapTogether : Handler := fun args env scope => do
  if args.length < 2 then return .unknown
  match ← call? ev args env scope with
  | none => return .unknown
  | some (callee, seqs) =>
    Eval.withResult (seqs.mapM Value.asSequence) fun seqs => do
      match ← results p ev callee (transpose seqs) scope with
      | none => return .unknown
      | some results => Eval.ofExcept (Value.ofItems results)

def funcall : Handler := fun args env scope => do
  match ← call? ev args env scope with
  | none => return .unknown
  | some (callee, values) => callee.apply p ev values scope

/-- Calls a function; the items of the last argument are arguments of their own. -/
def applyForm : Handler := fun args env scope => do
  if args.length < 2 then return .unknown
  match ← call? ev args env scope with
  | none => return .unknown
  | some (callee, values) =>
    Eval.withResult (values.getLastD .nil).asList fun items =>
      callee.apply p ev (values.dropLast ++ items) scope

def reduceFrom (callee : Callee) (scope : Scope) (acc : Value) : List Value → Eval Value
  | [] => return acc
  | v :: rest => do
    let acc ← callee.apply p ev [acc, v] scope
    if acc.isUnknown then return .unknown else reduceFrom callee scope acc rest

def reduceItems (callee : Callee) (scope : Scope) : List Value → Eval Value
  | [] => callee.apply p ev [] scope
  | v :: rest => reduceFrom p ev callee scope v rest

/-- Combines the items from the left, perhaps behind an initial value. -/
def reduce : Handler := fun args env scope => do
  if args.length ≠ 2 ∧ args.length ≠ 4 then return .unknown
  match ← call? ev args env scope with
  | some (callee, seq :: more) =>
    Eval.withResult seq.asSequence fun items =>
      match more with
      | [] => reduceItems p ev callee scope items
      | [.sym ":initial-value", init] => reduceItems p ev callee scope (init :: items)
      | _ => return .unknown
  | _ => return .unknown

end PatternLint.Evaluation
