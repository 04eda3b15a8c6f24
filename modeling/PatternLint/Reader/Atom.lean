import PatternLint.Reader.Token

/-! What the text of an atom denotes: the empty list, a number, or a symbol. -/

namespace PatternLint.Reader

open Text.Numeral (isDecimal ofDecimals)

/-- The sign of a number, if it is negative, and the text behind an optional sign. -/
def splitSign : List Char → Bool × List Char
  | '-' :: rest => (true, rest)
  | '+' :: rest => (false, rest)
  | cs => (false, cs)

/-- Digits with an optional sign before them and an optional point after them. -/
def isIntegerText (cs : List Char) : Bool :=
  let body := (splitSign cs).2
  let digits := body.takeWhile isDecimal
  digits ≠ [] && (body.drop digits.length == [] || body.drop digits.length == ['.'])

/-- What follows the letter `e` of a number. -/
inductive Exponent where
  | power (e : Int)
  | infinity
  | nan
  deriving Repr, DecidableEq

def exponent? (cs : List Char) : Option Exponent :=
  if cs = "+INF".toList then some .infinity
  else if cs = "+NaN".toList then some .nan
  else
    let (negative, digits) := splitSign cs
    if digits ≠ [] ∧ digits.all isDecimal then
      some (.power (if negative then -(ofDecimals digits : Int) else ofDecimals digits))
    else none

/-- A number with a fraction, an exponent or both. The digits before the point may be missing only
if there are some after it, and the special exponents need digits before the point. -/
def float? (cs : List Char) : Option Float :=
  let (negative, body) := splitSign cs
  let whole := body.takeWhile isDecimal
  let afterWhole := body.drop whole.length
  let (pointed, fraction, tail) := match afterWhole with
    | '.' :: rest => (true, rest.takeWhile isDecimal, rest.dropWhile isDecimal)
    | rest => (false, [], rest)
  let value (e : Int) :=
    Decimal.ofDecimal negative (ofDecimals (whole ++ fraction)) (e - fraction.length)
  match tail with
  | [] => if pointed ∧ fraction ≠ [] then some (value 0) else none
  | 'e' :: digits =>
    match exponent? digits with
    | some (.power e) => if whole ≠ [] ∨ fraction ≠ [] then some (value e) else none
    | some .infinity => if whole ≠ [] then some (Decimal.infinity negative) else none
    | some .nan => if whole ≠ [] then some Decimal.nan else none
    | none => none
  | _ => none

/-- Escaped text is always a symbol. -/
def atomValue (text : String) (escaped : Bool) : Except Fault Value :=
  if escaped then .ok (.sym text)
  else if text = "nil" then .ok .nil
  else if isIntegerText text.toList then
    (readNumeral 10 (text.toList.filter (· != '.'))).map .int
  else match float? text.toList with
    | some x => .ok (.float x)
    | none => .ok (.sym text)

end PatternLint.Reader
