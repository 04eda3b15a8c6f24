import PatternLint.Analysis.Document

/-! Collecting the functions, macros and aliases that a text defines, wherever in its forms the
definitions stand. Quoted data are not entered. -/

namespace PatternLint.Analysis

def functionDefiners : List String :=
  ["defun", "defsubst", "cl-defun", "cl-defsubst", "define-inline"]

def macroDefiners : List String :=
  ["defmacro", "cl-defmacro"]

def aliasDefiners : List String :=
  ["defalias", "fset", "define-obsolete-function-alias"]

def isDeclaration : Value → Bool
  | .list (.sym name :: _) => name = "declare" || name = "interactive"
  | _ => false

/-- The code behind leading declarations; the last form is always code. -/
def withoutDeclarations : List Value → List Value
  | form :: next :: rest =>
    if isDeclaration form then withoutDeclarations (next :: rest) else form :: next :: rest
  | forms => forms

/-- The documentation and the code of a body. A string that stands alone is a value. -/
def splitBody : List Value → Option String × List Value
  | .str doc :: next :: rest => (some doc, withoutDeclarations (next :: rest))
  | body => (none, withoutDeclarations body)

/-- Records what a definition tells. -/
def Findings.define (s : Findings) (isMacro : Bool) (name : String) (formals : Value)
    (forms : List Value) : Findings :=
  let (doc, body) := splitBody forms
  let d : Definition := ⟨formals, body⟩
  let defs := if isMacro then { s.defs with macros := s.defs.macros.put name d }
    else { s.defs with functions := s.defs.functions.put name d }
  let positions := regexpParameters formals doc
  { s with
    defs := defs
    regexpReturning :=
      if returnsRegexp name doc ∧ name ∉ s.regexpReturning then name :: s.regexpReturning
      else s.regexpReturning
    regexpArguments :=
      if positions.isEmpty then s.regexpArguments else s.regexpArguments.put name positions }

/-- Records that a name stands for another one, or for a closure. -/
def Findings.alias (s : Findings) (name : String) (target : Value) : Findings :=
  match target with
  | .sym other =>
    if other = name then s
    else { s with defs := { s.defs with aliases := s.defs.aliases.put name other } }
  | .closure formals body _ _ =>
    { s with defs := { s.defs with functions := s.defs.functions.put name ⟨formals, body⟩ } }
  | _ => s

variable (doc : Document)

def collectAlias (name target : Value) : Analyze Unit := do
  match ← value doc name none [] with
  | .sym name => do
    let target ← value doc target none []
    Analyze.change fun s => s.alias name target
  | _ => return

/-- Records a form that is a definition itself. -/
def collectHere (head : String) (args : List Value) : Analyze Unit :=
  if head ∈ functionDefiners ∨ head ∈ macroDefiners then
    match args with
    | .sym name :: formals :: forms =>
      Analyze.change fun s => s.define (decide (head ∈ macroDefiners)) name formals forms
    | _ => return
  else if head ∈ aliasDefiners then
    match args with
    | name :: target :: _ => collectAlias doc name target
    | _ => return
  else return

mutual
/-- Records the definitions in a form. -/
def collectForm (form : Value) : Analyze Unit :=
  match form with
  | .list (.sym head :: args) =>
    if head = "quote" then return
    else do
      collectHere doc head args
      collectForms args
  | .list items => collectForms items
  | _ => return
def collectForms (forms : List Value) : Analyze Unit :=
  match forms with
  | [] => return
  | form :: rest => do
    collectForm form
    collectForms rest
end

end PatternLint.Analysis
