import PatternLint.Analysis.Collect
import PatternLint.Analysis.Construct

/-! Analysis of a whole text: first the definitions are collected, then all
forms are walked through. -/

namespace PatternLint.Analysis

variable [Conduct] (doc : Document)

/-- Visits a form, and leaves its parts to `visit`, from within so many calls more. Parts that no
construct visited itself are visited with no variable to be assigned. -/
def visitStep (visit : Nat → Visitor) : Visitor := fun form p =>
  match form with
  | .dotted items tail => visitItems (visit 1) p.fixed 0 (items ++ [tail])
  | .list (.sym head :: args) => do
    let name ← match Construct.named? head with
      | some _ => pure head
      | none => pure ((← Analyze.findings).defs.resolve head)
    let done ← match Construct.named? name with
      | some c => c.run doc visit head args p
      | none => do
        checkCall doc head name args p
        pure false
    if done then return else visitItems (visit 1) p.fixed 1 args
  | .list items => visitItems (visit 1) p.fixed 0 items
  | _ => return

/-- Visits a form from within some calls, with a bound on the depth of all this. -/
def visit : (depth calls : Nat) → Visitor
  | 0, _ => fun _ _ => throw .tooDeep
  | depth + 1, 0 => visitStep doc (visit depth)
  | depth + 1, calls + 1 => visit depth calls

/-- Visits a form at the top of the text, as far as its parts do not lie too deep. -/
def visitTop (form : Value) (offset : Nat) : Analyze Unit := do
  let env ← newFrame none []
  Analyze.untilTooDeep (visit doc maxDepth 0 form ⟨offset, [], env, []⟩)

def visitAll : List (Value × Nat) → Analyze Unit
  | [] => return
  | (form, offset) :: rest => do
    visitTop doc form offset
    visitAll rest

/-- Analyzes forms, given with their offsets. -/
def analyze (forms : List (Value × Nat)) : Analyze Unit := do
  collectForms doc (forms.map (·.1))
  visitAll doc forms

end PatternLint.Analysis
