import PatternLint.Decimal.Shortest

/-! Doubles as text: positional and exponent notation, with the shortest digits or with a given
number of them. -/

namespace PatternLint.Decimal

def zeros (n : Nat) : List Char :=
  List.replicate n '0'

/-- Digits with a point after the first `before` of them; zeros fill both sides. -/
def positional (digits : List Char) (before : Int) : List Char :=
  if before ≤ 0 then '0' :: '.' :: zeros (-before).toNat ++ digits
  else if digits.length ≤ before.toNat then
    digits ++ zeros (before.toNat - digits.length) ++ ['.', '0']
  else digits.take before.toNat ++ '.' :: digits.drop before.toNat

/-- A sign and at least two digits. -/
def exponentText (e : Int) : List Char :=
  let ds := Nat.toDigits 10 e.natAbs
  (if e < 0 then '-' else '+') :: zeros (2 - ds.length) ++ ds

def scientific (digits : List Char) (e : Int) : List Char :=
  match digits with
  | [] => []
  | [d] => d :: 'e' :: exponentText e
  | d :: rest => d :: '.' :: rest ++ 'e' :: exponentText e

def dropZeros (digits : List Char) : List Char :=
  (digits.reverse.dropWhile (· == '0')).reverse

def signed (negative : Bool) (cs : List Char) : List Char :=
  if negative then '-' :: cs else cs

/-- The fewest digits that read back, positional for magnitudes from `10 ^ -4` to below
`10 ^ 16`, and never without a digit after the point. -/
def shortestText (x : Float) : List Char :=
  match Double.ofFloat x with
  | .nan => "nan".toList
  | .infinite negative => signed negative "inf".toList
  | .finite ⟨negative, 0, _⟩ => signed negative "0.0".toList
  | .finite ⟨negative, significand, exponent⟩ =>
    let (d, places) := shortest significand exponent
    let all := Nat.toDigits 10 d
    let e : Int := all.length + places - 1
    let digits := dropZeros all
    signed negative (if -4 ≤ e ∧ e < 16 then positional digits (e + 1) else scientific digits e)

/-- A magnitude with exactly `places` digits after the point. -/
def fixedText (x : Scaled) (places : Nat) : List Char :=
  let n := roundDiv (x.ratio.1 * pow10 places) x.ratio.2
  let ds := Nat.toDigits 10 n
  let ds := zeros (places + 1 - ds.length) ++ ds
  if places = 0 then ds else ds.take (ds.length - places) ++ '.' :: ds.drop (ds.length - places)

/-- The first `count + 1` significant digits, rounded, and the power of ten of the first. -/
def significant (x : Scaled) (count : Nat) : List Char × Int :=
  if x.significand = 0 then (zeros (count + 1), 0)
  else
    let e := floorLog10 x.ratio.1 x.ratio.2
    let g := inUnits x.ratio.1 x.ratio.2 (e - count)
    let ds := Nat.toDigits 10 (roundDiv g.num g.den)
    if ds.length > count + 1 then (ds.take (count + 1), e + 1) else (ds, e)

def exponentialText (x : Scaled) (places : Nat) : List Char :=
  let (ds, e) := significant x places
  scientific ds e

/-- Zeros that end the digits after a point, and a point that ends the text, are left out. -/
def trimFraction (cs : List Char) : List Char :=
  if '.' ∈ cs then
    match (cs.reverse.dropWhile (· == '0')) with
    | '.' :: rest => rest.reverse
    | rest => rest.reverse
  else cs

/-- The shorter of the two notations at a number of significant digits. -/
def generalText (x : Scaled) (digits : Nat) : List Char :=
  let p := if digits = 0 then 1 else digits
  let (ds, e) := significant x (p - 1)
  if -4 ≤ e ∧ e < p then trimFraction (fixedText x (p - 1 - e).toNat)
  else scientific (match dropZeros ds with | [] => ['0'] | rest => rest) e

end PatternLint.Decimal
