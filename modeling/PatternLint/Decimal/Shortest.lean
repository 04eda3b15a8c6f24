import PatternLint.Decimal.Double

/-! The fewest decimal digits that read back as the same double. Of the points of a
decimal grid only the two neighbours of the number matter: if some point of the grid reads
back, one of them does. -/

namespace PatternLint.Decimal

/-- The largest `k` with `10 ^ k * den ≤ num`, for a ratio above zero. -/
def floorLog10 (num den : Nat) : Int :=
  let guess := (floorLog2 num den) * 30103 / 100000
  let atLeast (k : Int) : Bool :=
    if k ≥ 0 then den * pow10 k.toNat ≤ num else den ≤ num * pow10 (-k).toNat
  if atLeast (guess + 1) then guess + 1
  else if atLeast guess then guess
  else guess - 1

/-- A number `digits * 10 ^ places` and the double's exact value over one denominator. -/
structure Grid where
  num : Nat
  den : Nat
  deriving Repr

/-- `num / den` counted in units of `10 ^ places`. -/
def inUnits (num den : Nat) (places : Int) : Grid :=
  if places ≥ 0 then ⟨num, den * pow10 places.toNat⟩ else ⟨num * pow10 (-places).toNat, den⟩

/-- The open or closed interval of the reals that round to a double, as `(low, high)` numerators
over the denominator `den`. -/
structure Rounding where
  low : Nat
  value : Nat
  high : Nat
  den : Nat
  closed : Bool

/-- Half a unit on either side; below a power of two the units are half as wide. -/
def rounding (significand : Nat) (exponent : Int) : Rounding :=
  let narrow := significand = pow2 52 ∧ exponent > -1074
  let (num, den) := Scaled.ratio ⟨false, 1, exponent - 2⟩
  { low := (4 * significand - if narrow then 1 else 2) * num
    value := 4 * significand * num
    high := (4 * significand + 2) * num
    den := den
    closed := significand % 2 = 0 }

def Rounding.holds (r : Rounding) (digits : Nat) (places : Int) : Bool :=
  let g := inUnits digits 1 (-places)
  let x := g.num * r.den
  let lo := r.low * g.den
  let hi := r.high * g.den
  if r.closed then lo ≤ x && x ≤ hi else lo < x && x < hi

/-- Of the two neighbours of the value on the grid of `10 ^ places`, the nearer one that reads
back; a tie goes to the even one. -/
def Rounding.onGrid? (r : Rounding) (places : Int) : Option Nat :=
  let g := inUnits r.value r.den places
  let down := g.num / g.den
  let rest := g.num % g.den
  let first := if 2 * rest > g.den || (2 * rest == g.den && down % 2 == 1) then down + 1 else down
  let second := if first = down then down + 1 else down
  if r.holds first places then some first
  else if r.holds second places then some second
  else none

def Rounding.search (r : Rounding) (top : Int) : (count : Nat) → Nat → Nat × Int
  | 0, size => (r.value / r.den, top - size)
  | count + 1, size =>
    let places := top - size
    match r.onGrid? places with
    | some d => (d, places)
    | none => r.search top count (size + 1)

/-- Digits and power of ten of the shortest decimal for a magnitude above zero. -/
def shortest (significand : Nat) (exponent : Int) : Nat × Int :=
  let r := rounding significand exponent
  r.search (floorLog10 r.value r.den) 18 0

end PatternLint.Decimal
