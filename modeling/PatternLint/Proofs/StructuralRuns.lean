import PatternLint.Proofs.KnownResults
import PatternLint.Proofs.StrictRuns

/-! What structural evaluation makes of an expression with a known value. It is that value,
unless the structure comes to the bound of its depth: it takes more calls for a
construction than evaluation. -/

namespace PatternLint

open Evaluation Simulation

variable {expr v : Value} {env : Option FrameId} {mutables : List String} {defs : Definitions}
  {loopLimit : Nat} {s t : Store}

end PatternLint
