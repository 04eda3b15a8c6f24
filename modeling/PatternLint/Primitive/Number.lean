import PatternLint.Primitive.Basic

/-! Arithmetic on integers of any size and on doubles. An integer that meets a double is rounded to
one, while comparisons between the two are exact. -/

namespace PatternLint

inductive Number where
  | int (n : Int)
  | float (x : Float)

def Value.asNumber : Value → Except Fault Number
  | .int n => .ok (.int n)
  | .float x => .ok (.float x)
  | v => .error (.wrongType "numberp" v)

namespace Number

def toValue : Number → Value
  | int n => .int n
  | float x => .float x

/-- The value of a result that may be too wide. -/
def checked : Number → Except Fault Value
  | int n => Value.ofInt n
  | float x => .ok (.float x)

/-- The nearest double. -/
def round : Number → Except Fault Float
  | float x => .ok x
  | int n =>
    match Decimal.ofInt? n with
    | some x => .ok x
    | none => .error .wideFloat

/-- An operation on two integers or, failing that, on two doubles. -/
def combine (onInts : Int → Int → Int) (onFloats : Float → Float → Float) (a b : Number) :
    Except Fault Number :=
  match a, b with
  | int m, int n => .ok (int (onInts m n))
  | a, b => do return float (onFloats (← a.round) (← b.round))

def add : Number → Number → Except Fault Number :=
  combine (· + ·) (· + ·)

def sub : Number → Number → Except Fault Number :=
  combine (· - ·) (· - ·)

def mul : Number → Number → Except Fault Number :=
  combine (· * ·) (· * ·)

def neg : Number → Number
  | int n => int (-n)
  | float x => float (-x)

def abs : Number → Number
  | int n => int n.natAbs
  | float x => float x.abs

def orderIntFloat (n : Int) (x : Float) : Option Ordering :=
  match Decimal.Double.ofFloat x with
  | .nan => none
  | .infinite negative => some (if negative then .gt else .lt)
  | .finite s => some (Decimal.compareInt n s)

/-- The order of two numbers, unless one of them is not a number. -/
def order : Number → Number → Option Ordering
  | int m, int n => some (Ord.compare m n)
  | int m, float y => orderIntFloat m y
  | float x, int n => (orderIntFloat n x).map Ordering.swap
  | float x, float y =>
    if x < y then some .lt else if x == y then some .eq else if y < x then some .gt else none

def lt (a b : Number) : Bool :=
  a.order b == some .lt

def isZero (a : Number) : Bool :=
  a.order (int 0) == some .eq

def floatQuotient (a b : Number) : Except Fault Float := do
  let x ← a.round
  let y ← b.round
  if y == 0 then .error .zeroDivisor else return x / y

/-- The quotient; that of two integers is truncated. -/
def div (a b : Number) : Except Fault Number :=
  match a, b with
  | int m, int n =>
    if n = 0 then .error (.signal .divisionByZero) else .ok (int (m.tdiv n))
  | a, b => (floatQuotient a b).map float

/-- The quotient as a double, rounded once. -/
def ratio (a b : Number) : Except Fault Float :=
  match a, b with
  | int m, int n =>
    if n = 0 then .error .zeroDivisor
    else match Decimal.nearest? (decide (m < 0) != decide (n < 0)) m.natAbs n.natAbs with
      | some x => .ok x
      | none => .error .wideFloat
  | a, b => floatQuotient a b

/-- The remainder of the truncated quotient, with the sign of the dividend. -/
def floatRemainder (x y : Float) : Float :=
  match Decimal.Double.ofFloat x, Decimal.Double.ofFloat y with
  | .finite a, .finite b => if b.significand = 0 then Decimal.nan else Decimal.remainder a b
  | .finite _, .infinite _ => x
  | _, _ => Decimal.nan

/-- The remainder of the floored quotient, with the sign of the divisor. -/
def floatModulo (x y : Float) : Float :=
  let r := floatRemainder x y
  if r == 0 then (if y < 0 then -0.0 else 0.0)
  else if (y < 0) != (r < 0) then r + y
  else r

def modulo (a b : Number) : Except Fault Number :=
  match a, b with
  | int m, int n => if n = 0 then .error .zeroDivisor else .ok (int (m.fmod n))
  | a, b => do
    let x ← a.round
    let y ← b.round
    if y == 0 then .error .zeroDivisor else return float (floatModulo x y)

/-- The integer between a double and zero that is nearest to it. -/
def truncateFloat (x : Float) : Except Fault Int :=
  match Decimal.Double.ofFloat x with
  | .nan => .error .notANumber
  | .infinite _ => .error .infinite
  | .finite s => .ok s.truncate

def truncate : Number → Except Fault Int
  | int n => .ok n
  | float x => truncateFloat x

end Number

namespace Primitive

def numbers (args : List Value) : Except Fault (List Number) :=
  args.mapM Value.asNumber

def sum : Primitive := fun args => do
  (← args.foldlM (fun total v => do total.add (← v.asNumber)) (Number.int 0)).checked

def difference : Primitive := fun args => do
  match ← numbers args with
  | [] => return .int 0
  | [a] => return a.neg.toValue
  | a :: rest => (← rest.foldlM Number.sub a).checked

/-- Every partial product is checked. -/
def product : Primitive := fun args => do
  let step (total : Value) (v : Value) : Except Fault Value := do
    let b ← v.asNumber
    (← (← total.asNumber).mul b).checked
  args.foldlM step (.int 1)

def quotient : Primitive := leading fun a rest => do
  return (← rest.foldlM (fun q v => do q.div (← v.asNumber)) (← a.asNumber)).toValue

/-- The integer value of the double nearest to an integer. -/
def rounded (n : Int) : Except Fault Int := do
  Number.truncateFloat (← (Number.int n).round)

/-- The remainder of two integers, each rounded to a double first. -/
def remainder : Primitive := binary fun a b => do
  let m ← a.asInt
  let n ← b.asInt
  let m ← rounded m
  let n ← rounded n
  if n = 0 then .error .zeroRemainder else return .int (m.tmod n)

def modulo : Primitive := binary fun a b => do
  let m ← a.asNumber
  let n ← b.asNumber
  return (← m.modulo n).toValue

def successor : Primitive := unary fun a => do
  (← (← a.asNumber).add (.int 1)).checked

def predecessor : Primitive := unary fun a => do
  (← (← a.asNumber).sub (.int 1)).checked

/-- The first argument that no later one is better than. -/
def best (better : Number → Number → Bool) : Primitive := leading fun a rest => do
  let step (b : Number) (v : Value) : Except Fault Number := do
    let c ← v.asNumber
    return if better c b then c else b
  return (← rest.foldlM step (← a.asNumber)).toValue

def maximum : Primitive :=
  best fun a b => b.lt a

def minimum : Primitive :=
  best Number.lt

def magnitude : Primitive := unary fun a => do
  return (← a.asNumber).abs.toValue

/-- Whether each argument stands in an order to the next that is among `accepted`. -/
def chain (accepted : List Ordering) : Primitive := leading fun a rest => do
  let ns ← numbers (a :: rest)
  return .ofBool ((ns.zip ns.tail).all fun (m, n) => (m.order n).any (accepted.contains ·))

def differs : Primitive := binary fun a b => do
  let m ← a.asNumber
  let n ← b.asNumber
  return .ofBool (m.order n != some .eq)

def isZero : Primitive := unary fun a => do
  return .ofBool (← a.asNumber).isZero

/-- The number `start + i * step`. -/
def sequenceItem (start step : Number) (i : Nat) : Except Fault Value := do
  return (← start.add (← (Number.int i).mul step)).toValue

/-- The numbers from `start` to `finish` in equal steps. -/
def numberSequence : Primitive := flexible 1 2 fun args => do
  match args with
  | [start, finish, step] =>
    let start ← start.asNumber
    if finish.isNil then return .list [start.toValue]
    let finish ← finish.asNumber
    let step ← if step.isNil then pure (Number.int 1) else step.asNumber
    if step.isZero then .error (.signal .zeroIncrement)
    let count := (← Number.truncateFloat (← (← finish.sub start).ratio step)) + 1
    if count > maxLength then .error (.signal .sequenceTooLong)
    Value.ofItems (← (List.range count.toNat).mapM (sequenceItem start step))
  | _ => .error .arity

end Primitive

end PatternLint
