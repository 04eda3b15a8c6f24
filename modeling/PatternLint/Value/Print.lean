import PatternLint.Fault

/-! The printed form of data. Printed readably, strings are quoted so that reading gives the datum
back; otherwise they stand for themselves. -/

namespace PatternLint

/-- The most data that one walk through a structure may meet. -/
def maxNodes : Nat := 100000

/-- One more datum has been met. -/
def spend : Nat → Except Fault Nat
  | 0 => .error (.signal .structureTooLarge)
  | left + 1 => .ok left

namespace Value

def quoteText (s : List Char) : List Char :=
  '"' :: s.flatMap (fun c => if c == '\\' || c == '"' then ['\\', c] else [c]) ++ ['"']

def floatText (x : Float) : String :=
  match Decimal.Double.ofFloat x with
  | .nan => "0.0e+NaN"
  | .infinite negative => if negative then "-1.0e+INF" else "1.0e+INF"
  | .finite _ => String.ofList (Decimal.shortestText x)

mutual
/-- Appends the text of a value, in a call of its own, and gives what is left of the budget. The
items of a value are printed from another call within that one. -/
def printOnto (readably : Bool) (calls : Nat) (out : String) (value : Value) (left : Nat) :
    Except Fault (String × Nat) := do
  let calls ← enter calls
  let left ← spend left
  match value with
  | nil | list [] => return (out ++ "nil", left)
  | str text =>
    return (out ++ (if readably then String.ofList (quoteText text.toList) else text), left)
  | sym name => return (out ++ name, left)
  | float x => return (out ++ floatText x, left)
  | int n => do
    let text ← (Text.Numeral.write n).mapError .numeral
    return (out ++ text, left)
  | list (first :: rest) => do
    let inner ← enter calls
    let (out, left) ← printOnto readably inner (out ++ "(") first left
    let (out, left) ← printAllOnto readably inner out rest left
    return (out ++ ")", left)
  | dotted items tail => do
    let inner ← enter calls
    let (out, left) ←
      match items with
      | [] => pure (out ++ "(", left)
      | first :: rest => do
        let (out, left) ← printOnto readably inner (out ++ "(") first left
        printAllOnto readably inner out rest left
    let (out, left) ← printOnto readably calls (out ++ " . ") tail left
    return (out ++ ")", left)
  | vec items => do
    let inner ← enter calls
    match items with
    | [] => return (out ++ "[]", left)
    | first :: rest => do
      let (out, left) ← printOnto readably inner (out ++ "[") first left
      let (out, left) ← printAllOnto readably inner out rest left
      return (out ++ "]", left)
  | closure .. | unknown => .error (Fault.about value (.unprintable value))
/-- Appends the texts of values, with a space before each. -/
def printAllOnto (readably : Bool) (calls : Nat) (out : String) (items : List Value) (left : Nat) :
    Except Fault (String × Nat) := do
  match items with
  | [] => return (out, left)
  | v :: rest => do
    let (out, left) ← printOnto readably calls (out ++ " ") v left
    printAllOnto readably calls out rest left
end

def print (readably : Bool) (value : Value) : Except Fault String :=
  (printOnto readably maxDepth "" value maxNodes).map (·.1)

/-- The printed form that can be read back. -/
def prin1 (value : Value) : Except Fault String :=
  print true value

/-- The printed form in which strings stand for themselves. -/
def princ (value : Value) : Except Fault String :=
  print false value

end Value

end PatternLint
