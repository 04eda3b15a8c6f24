import PatternLint.Power

/-! Doubles as exact numbers: a finite double is a sign, a significand and a power of two, and the
double nearest to a ratio is found by integer arithmetic, a tie going to the even significand. -/

namespace PatternLint.Decimal

/-- A magnitude `significand * 2 ^ exponent` with its sign. -/
structure Scaled where
  negative : Bool
  significand : Nat
  exponent : Int
  deriving Repr, DecidableEq

inductive Double where
  | nan
  | infinite (negative : Bool)
  | finite (x : Scaled)
  deriving Repr, DecidableEq

namespace Double

def ofFloat (x : Float) : Double :=
  let bits := x.toBits.toNat
  let negative := bits ≥ pow2 63
  let field : Nat := bits / pow2 52 % 2048
  let fraction : Nat := bits % pow2 52
  if field = 2047 then
    if fraction = 0 then .infinite negative else .nan
  else if field = 0 then .finite ⟨negative, fraction, -1074⟩
  else .finite ⟨negative, fraction + pow2 52, (field : Int) - 1075⟩

end Double

/-- The magnitude as a numerator and a denominator. -/
def Scaled.ratio (x : Scaled) : Nat × Nat :=
  if x.exponent ≥ 0 then (x.significand * pow2 x.exponent.toNat, 1)
  else (x.significand, pow2 (-x.exponent).toNat)

/-- The integer between the number and zero that is nearest to it. -/
def Scaled.truncate (x : Scaled) : Int :=
  let n := x.ratio.1 / x.ratio.2
  if x.negative then -n else n

/-- The quotient rounded to the nearest integer, a tie to the even one. -/
def roundDiv (num den : Nat) : Nat :=
  let q := num / den
  let r := num % den
  if 2 * r > den || (2 * r == den && q % 2 == 1) then q + 1 else q

/-- The largest `k` with `2 ^ k * den ≤ num`. -/
def floorLog2 (num den : Nat) : Int :=
  let k : Int := (num.log2 : Int) - den.log2
  if k ≥ 0 then
    if num ≥ den * pow2 k.toNat then k else k - 1
  else
    if num * pow2 (-k).toNat ≥ den then k else k - 1

def encode (negative : Bool) (significand : Nat) (exponent : Int) : Float :=
  let magnitude :=
    if significand < pow2 52 then significand
    else (exponent + 1075).toNat * pow2 52 + (significand - pow2 52)
  Float.ofBits (UInt64.ofNat ((if negative then pow2 63 else 0) + magnitude))

def infinity (negative : Bool) : Float :=
  Float.ofBits (if negative then 0xfff0000000000000 else 0x7ff0000000000000)

def nan : Float :=
  Float.ofBits 0x7ff8000000000000

/-- The double nearest to `num / den`, if the ratio is not beyond the largest one. -/
def nearest? (negative : Bool) (num den : Nat) : Option Float :=
  if num = 0 then some (encode negative 0 (-1074))
  else
    let e := max (floorLog2 num den - 52) (-1074)
    let m :=
      if e ≥ 0 then roundDiv num (den * pow2 e.toNat) else roundDiv (num * pow2 (-e).toNat) den
    let (m, e) := if m = pow2 53 then (pow2 52, e + 1) else (m, e)
    if e > 971 then none else some (encode negative m e)

/-- The double nearest to an integer. -/
def ofInt? (n : Int) : Option Float :=
  nearest? (n < 0) n.natAbs 1

/-- The double that decimal digits and a power of ten denote; beyond the range it is an infinity. -/
def ofDecimal (negative : Bool) (digits : Nat) (places : Int) : Float :=
  let size : Int := (Nat.toDigits 10 digits).length + places
  if digits = 0 || size < -400 then encode negative 0 (-1074)
  else if size > 400 then infinity negative
  else
    let r := if places ≥ 0 then nearest? negative (digits * pow10 places.toNat) 1
      else nearest? negative digits (pow10 (-places).toNat)
    r.getD (infinity negative)

/-- Orders an integer and a finite number exactly. -/
def compareInt (n : Int) (x : Scaled) : Ordering :=
  let (num, den) := x.ratio
  compare (n * den) (if x.negative then -(num : Int) else num)

/-- The remainder of the truncated quotient, with the sign of the dividend; the divisor is not
zero. -/
def remainder (a b : Scaled) : Float :=
  let (an, ad) := a.ratio
  let (bn, bd) := b.ratio
  (nearest? a.negative (an * bd % (bn * ad)) (ad * bd)).getD (infinity a.negative)

end PatternLint.Decimal
