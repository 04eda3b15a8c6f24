import PatternLint.Value.Print

/-! Equality of data: by structure, and by identity where identity can be known. -/

namespace PatternLint.Value

def sameFloat (x y : Float) : Bool :=
  x == y

/-- Numbers compare by value, whatever their kinds. -/
def intIsFloat (n : Int) (x : Float) : Bool :=
  match Decimal.Double.ofFloat x with
  | .finite s => Decimal.compareInt n s == .eq
  | _ => false

mutual
/-- Plain equality, which holds between an integer and a float of the same value. -/
def same : Value → Value → Bool
  | nil, nil => true
  | str a, str b => a == b
  | int a, int b => a == b
  | float a, float b => sameFloat a b
  | int a, float b => intIsFloat a b
  | float a, int b => intIsFloat b a
  | sym a, sym b => a == b
  | list a, list b => sameAll a b
  | dotted a s, dotted b t => sameAll a b && same s t
  | vec a, vec b => sameAll a b
  | closure _ _ _ i, closure _ _ _ j => i == j
  | unknown, unknown => true
  | _, _ => false
def sameAll : List Value → List Value → Bool
  | [], [] => true
  | a :: as, b :: bs => same a b && sameAll as bs
  | _, _ => false
end

mutual
/-- Structural equality within a budget. Lists are compared item by item and atoms within their
kind; inside vectors plain equality decides. -/
def equalWithin (a b : Value) (left : Nat) : Except Fault (Bool × Nat) := do
  let left ← spend left
  match a, b with
  | list xs, list ys => if xs.length ==
      ys.length then equalAllWithin xs ys left else return (false, left)
  | dotted xs s, dotted ys t => do
    let left ← spend left
    let (ok, left) ←
      if xs.length == ys.length then equalAllWithin xs ys left else pure (false, left)
    if ok then equalWithin s t left else return (false, left)
  | int x, int y => return (x == y, left)
  | float x, float y => return (sameFloat x y, left)
  | int _, float _ => return (false, left)
  | float _, int _ => return (false, left)
  | a, b => return (same a b || (a.isNil && b.isNil), left)
def equalAllWithin (as bs : List Value) (left : Nat) : Except Fault (Bool × Nat) := do
  match as, bs with
  | a :: as, b :: bs => do
    let (ok, left) ← equalWithin a b left
    if ok then equalAllWithin as bs left else return (false, left)
  | _, _ => return (true, left)
end

/-- Structural equality. -/
def equal (a b : Value) : Except Fault Bool :=
  (equalWithin a b maxNodes).map (·.1)

/-- Identity. Integers and symbols are identical when they are the same; of two strings, floats,
lists or vectors nothing can be said. -/
def eq (a b : Value) : Except Fault Bool :=
  if a.isNil && b.isNil then .ok true
  else match a, b with
    | int x, int y => .ok (x == y)
    | sym x, sym y => .ok (x == y)
    | str _, str _ | float _, float _ | list _, list _ | dotted .., dotted .. | vec _, vec _ =>
      .error (.signal .identityUnknown)
    | _, _ => .ok false

end PatternLint.Value
