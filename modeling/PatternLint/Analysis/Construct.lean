import PatternLint.Analysis.Walk

/-! The constructs that the walk knows. Each of them is given the head and the arguments of a form,
and tells whether it has visited the arguments itself. -/

namespace PatternLint.Analysis

variable [Conduct] (doc : Document) (visit visitBody : Visitor)

/-- Visits the body of a function, whose parameters are the only variables that may be assigned. -/
def enterScope (formals : Value) (index : Nat) (body : List Value) (p : Place) : Analyze Unit := do
  let names := LambdaList.names formals
  let env ← newFrame (some p.env) (names.map (·, .unknown))
  visitItems visit { p with env := env, mutables := names } index body

def visitDefinition (args : List Value) (p : Place) : Analyze Bool := do
  match args with
  | _ :: formals :: body => do
    enterScope visit formals 3 body p
    return true
  | _ => return false

def visitLambda (args : List Value) (p : Place) : Analyze Bool := do
  match args with
  | formals :: body => do
    enterScope visit formals 2 body p
    return true
  | [] => return false

/-- Visits and binds variables in turn; `index` is that of the first binding. In a sequential form a
first value sees the variables before it, and may assign them. -/
def visitBindings (sequential : Bool) (frame : FrameId) (p : Place) (index : Nat)
    (names : List String) : List (String × Value) → Analyze Unit
  | [] => return
  | (name, init) :: rest => do
    let inside := if sequential then { p with env := frame, mutables := names ++ p.mutables } else p
    visit init (((inside.part 1).part index).part 1)
    let v ← valueAt doc init inside
    Analyze.run fun _ => Eval.define frame name v
    visitBindings sequential frame p (index + 1) (name :: names) rest

def visitLet (head : String) (args : List Value) (p : Place) : Analyze Bool := do
  match args with
  | bindings :: body =>
    match Evaluation.bindings? bindings with
    | none => return false
    | some bindings => do
      let frame ← newFrame (some p.env) []
      visitBindings doc visit (decide (head = "let*")) frame p 0 [] bindings
      visitItems visitBody { p with env := frame, mutables := bindings.map (·.1) } 2 body
      return true
  | [] => return false

def visitLoop (args : List Value) (p : Place) : Analyze Bool := do
  match args with
  | .list (.sym name :: range) :: body => do
    match range with
    | [] => pure ()
    | first :: rest => do
      visit first ((p.part 1).part 1)
      visitItems visit (p.fixed.part 1) 2 rest
    let env ← newFrame (some p.env) [(name, .unknown)]
    visitItems visitBody { p.fixed with env := env } 2 body
    return true
  | _ => return false

/-- Visits pairs of a variable and an expression; `index` is that of the first variable. -/
def visitPairs (p : Place) (index : Nat) : List Value → Analyze Unit
  | target :: expr :: rest => do
    visit expr (p.part (index + 1))
    match target with
    | .sym name =>
      if ← isBound name p then assignAt doc name expr p
      else
        match (← Analyze.findings).shapeOf name with
        | some shape => checkExpr doc shape expr name (p.part (index + 1))
        | none => pure ()
        if p.path.isEmpty then defineGlobal doc name expr
    | _ => pure ()
    visitPairs p (index + 2) rest
  | _ => return

def visitPush (head : String) (args : List Value) (p : Place) : Analyze Bool := do
  match args with
  | [element, .sym name] => do
    visit element (p.part 1)
    if ← isBound name p then assignAt doc name (.list (.sym head :: args)) p
    else
      match (← Analyze.findings).shapeOf name with
      | some shape => checkElement doc shape element name (p.part 1)
      | none => pure ()
    return true
  | [element, target] => do
    visit element (p.part 1)
    visit target (p.fixed.part 2)
    return true
  | _ => return false

def visitPop (args : List Value) (p : Place) : Analyze Bool := do
  match args with
  | [.sym name] => do
    if ← isBound name p then assignAt doc name (.list [.sym "cdr", .sym name]) p
    return true
  | _ => return false

def visitAddToList (args : List Value) (p : Place) : Analyze Bool := do
  match args with
  | target :: element :: _ => do
    match ← shapeOfNamed (← valueAt doc target p) with
    | some (name, shape) => checkElement doc shape element name (p.part 2)
    | none => pure ()
  | _ => pure ()
  return false

/-- The expression whose value names the variable, where that is made local first. -/
def setTarget : Value → Value
  | .list [.sym head, target] =>
    if head = "make-local-variable" ∨ head = "make-variable-buffer-local" then target
    else .list [.sym head, target]
  | target => target

def visitSet (args : List Value) (p : Place) : Analyze Bool := do
  match args with
  | [target, expr] => do
    match ← shapeOfNamed (← valueAt doc (setTarget target) p) with
    | some (name, shape) => checkExpr doc shape expr name (p.part 2)
    | none => pure ()
  | _ => pure ()
  return false

/-- Visits operands of which only the first is certain to be evaluated. -/
def visitConditional (args : List Value) (p : Place) : Analyze Bool := do
  match args with
  | [] => pure ()
  | first :: rest => do
    visit first (p.part 1)
    visitItems visit p.fixed 2 rest
  return true

/-- Visits clauses, the first of which has the given index; only the test of the first clause is
certain to be evaluated. -/
def visitClauses (p : Place) (index : Nat) : List Value → Analyze Unit
  | [] => return
  | clause :: rest => do
    match clause with
    | .list (test :: body) => do
      visit test (((if index = 1 then p else p.fixed).part index).part 0)
      visitItems visit (p.fixed.part index) 1 body
    | _ => pure ()
    visitClauses p (index + 1) rest

/-- The type among the options of a customizable variable; the last one counts, and
an unknown one is none. -/
def customType (found : Option Value) (p : Place) : List Value → Analyze (Option Value)
  | .sym key :: expr :: rest => do
    if key = ":type" then
      let type ← valueAt doc expr p
      customType (if type.isUnknown then none else some type) p rest
    else customType found p rest
  | _ :: _ :: rest => customType found p rest
  | _ => return found

def visitVariable (head : String) (args : List Value) (p : Place) : Analyze Bool := do
  match args with
  | [.sym _] => return true
  | .sym name :: expr :: rest => do
    let p := p.fixed
    visit expr (p.part 2)
    let type ← if head = "defcustom" then customType doc none p (rest.drop 1) else pure none
    match shapeOfVariable name type (rest.head?.bind Value.strText?) with
    | some shape => do
      checkExpr doc shape expr name (p.part 2)
      Analyze.change fun s => { s with checked := s.checked.put name shape }
    | none => pure ()
    defineGlobal doc name expr
    return true
  | _ => return false

/-- Checks the argument of a movement over a set of characters or syntax classes. -/
def visitSkip (check : Site → String → String → Analyze Unit) (head : String) (args : List Value)
    (p : Place) : Analyze Bool := do
  match args with
  | arg :: _ => do
    match ← valueAt doc arg p with
    | .str text => check (← ((p.part 1).site arg).take) ("call to " ++ head) text
    | _ => pure ()
    checkOrigin doc head arg p
  | [] => pure ()
  return false

/-- Checks an argument of a call, if there is one with this index. -/
def checkArgument (shape : Shape) (head : String) (args : List Value) (index : Nat) (p : Place) :
    Analyze Unit := do
  match args[index - 1]? with
  | some arg => checkExpr doc shape arg ("call to " ++ head) (p.part index)
  | none => return

def visitGenericMode (head : String) (args : List Value) (p : Place) : Analyze Bool := do
  checkArgument doc .fontLock head args 4 p
  checkArgument doc .list head args 5 p
  return false

/-- Checks the regexps that begin rules, the first of which has the given index. -/
def checkRules (head : String) (p : Place) (index : Nat) : List Value → Analyze Unit
  | [] => return
  | rule :: rest => do
    match rule with
    | .list (regexp :: _) =>
      checkExpr doc .regexp regexp ("call to " ++ head) ((p.part index).part 0)
    | _ => pure ()
    checkRules head p (index + 1) rest

mutual
/-- Checks the clauses of a structured regexp that hold a regexp. -/
def checkClauses (name : String) (p : Place) (form : Value) : Analyze Unit :=
  match form with
  | .list [.sym "regexp", arg] => checkExpr doc .regexp arg name (p.part 1)
  | .list [.sym "regex", arg] => checkExpr doc .regexp arg name (p.part 1)
  | .list (.sym head :: args) =>
    if head ∈ Evaluation.characterClauses then return else checkClausesFrom name p 1 args
  | .list (_ :: args) => checkClausesFrom name p 1 args
  | _ => return
def checkClausesFrom (name : String) (p : Place) (index : Nat) (forms : List Value) :
    Analyze Unit :=
  match forms with
  | [] => return
  | form :: rest => do
    checkClauses name (p.part index) form
    checkClausesFrom name p (index + 1) rest
end

def visitRx (args : List Value) (p : Place) : Analyze Bool := do
  checkClausesFrom doc "call to rx" p 1 args
  return true

/-- A quoted structured regexp can be checked before it is evaluated. -/
def visitRxToString (args : List Value) (p : Place) : Analyze Bool := do
  match args with
  | .list [.sym mark, form] :: _ =>
    if mark = "quote" ∨ mark = "\x60" then do
      checkClauses doc "call to rx-to-string" ((p.part 1).part 1) form
      return true
    else return false
  | _ => return false

inductive Construct where
  | quoted
  | definition
  | lambda
  | letForm
  | loop
  | assignment
  | push
  | pop
  | addToList
  | set
  | conditional
  | cond
  | sequence
  | definitionOfVariable
  | skipChars
  | skipSyntax
  | concat
  | format
  | fontLock
  | genericMode
  | syntaxRules
  | rx
  | rxToString
  deriving Repr, DecidableEq

namespace Construct

def all : List (String × Construct) :=
  [("quote", .quoted), ("defun", .definition), ("defsubst", .definition), ("defmacro", .definition),
    ("cl-defun", .definition), ("cl-defsubst", .definition), ("cl-defmacro", .definition),
    ("define-inline", .definition), ("lambda", .lambda), ("let", .letForm), ("let*", .letForm),
    ("dolist", .loop), ("dotimes", .loop), ("setq", .assignment), ("setq-local", .assignment),
    ("setq-default", .assignment), ("push", .push), ("pop", .pop), ("add-to-list", .addToList),
    ("set", .set), ("if", .conditional), ("when", .conditional), ("unless", .conditional),
    ("and", .conditional), ("or", .conditional), ("cond", .cond), ("progn", .sequence),
    ("prog1", .sequence), ("prog2", .sequence), ("save-excursion", .sequence),
    ("save-restriction", .sequence), ("save-match-data", .sequence), ("ignore-errors", .sequence),
    ("with-no-warnings", .sequence), ("eval-when-compile", .sequence),
    ("eval-and-compile", .sequence), ("with-temp-buffer", .sequence),
    ("defvar", .definitionOfVariable), ("defconst", .definitionOfVariable),
    ("defcustom", .definitionOfVariable), ("defvar-local", .definitionOfVariable),
    ("skip-chars-forward", .skipChars), ("skip-chars-backward", .skipChars),
    ("skip-syntax-forward", .skipSyntax), ("skip-syntax-backward", .skipSyntax),
    ("concat", .concat), ("format", .format), ("format-message", .format),
    ("font-lock-add-keywords", .fontLock), ("font-lock-remove-keywords", .fontLock),
    ("define-generic-mode", .genericMode), ("syntax-propertize-rules", .syntaxRules), ("rx", .rx),
    ("rx-to-string", .rxToString)]

def named? (name : String) : Option Construct :=
  all.lookup name

/-- Checks a form, and tells whether its arguments were visited. For each part `visit` is told how
many calls lie between the visit of the form and that of the part: the one of the construct, one
that goes through a body, and one that enters a scope. -/
def run (visit : Nat → Visitor) (c : Construct) (head : String) (args : List Value) (p : Place) :
    Analyze Bool := do
  match c with
  | .quoted => return true
  | .definition => visitDefinition (visit 3) args p
  | .lambda => visitLambda (visit 3) args p
  | .letForm => visitLet doc (visit 1) (visit 2) head args p
  | .loop => visitLoop (visit 1) (visit 2) args p
  | .assignment => do
    visitPairs doc (visit 1) p 1 args
    return true
  | .push => visitPush doc (visit 1) head args p
  | .pop => visitPop doc args p
  | .addToList => visitAddToList doc args p
  | .set => visitSet doc args p
  | .conditional => visitConditional (visit 1) args p
  | .cond => do
    visitClauses (visit 1) p 1 args
    return true
  | .sequence => do
    visitItems (visit 2) p 1 args
    return true
  | .definitionOfVariable => visitVariable doc (visit 1) head args p
  | .skipChars =>
    visitSkip doc (fun site name text => site.check doc doc.skipSets name text) head args p
  | .skipSyntax => visitSkip doc (fun site name text => site.checkSyntax doc name text) head args p
  | .concat => do
    checkPieces doc (← (p.site (.list (.sym head :: args))).take) 1 args
    return false
  | .format => do
    checkFormat doc (.sym head :: args) (← (p.site (.list (.sym head :: args))).take)
    return false
  | .fontLock => do
    checkArgument doc .fontLock head args 2 p
    return false
  | .genericMode => visitGenericMode doc head args p
  | .syntaxRules => do
    checkRules doc head p 1 args
    return false
  | .rx => visitRx doc args p
  | .rxToString => visitRxToString doc args p

end Construct

end PatternLint.Analysis
