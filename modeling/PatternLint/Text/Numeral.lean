import PatternLint.Text.Blank
import PatternLint.Text.Digit
import PatternLint.Text.Quoted

/-! Integers as text. A numeral may be surrounded by white space, carry a sign, the mark of its base
and single underscores between digits. Outside the bases that are powers of two, numerals of more
than 4300 digits are refused in both directions. -/

namespace PatternLint.Text.Numeral

inductive Fault where
  | badBase
  | malformed (text : String) (base : Nat)
  | tooLong (digits : Nat)
  | wideResult
  deriving Repr, DecidableEq

def maxDigits : Nat := 4300

def Fault.message : Fault → String
  | .badBase => "int() base must be >= 2 and <= 36, or 0"
  | .malformed text base =>
    s!"invalid literal for int() with base {base}: {String.ofList ((quoted text).toList.take 200)}"
  | .tooLong digits =>
    s!"Exceeds the limit ({maxDigits} digits) for integer string conversion: value has {digits} digits; use sys.set_int_max_str_digits() to increase the limit"
  | .wideResult =>
    s!"Exceeds the limit ({maxDigits} digits) for integer string conversion; use sys.set_int_max_str_digits() to increase the limit"

/-- Decimal digits of every script become those of ASCII, and white space a space. -/
def plainChar (c : Char) : Char :=
  if c.toNat < 127 then c
  else if isSpace c then ' '
  else ((decimalValue? c).map asciiDigit).getD '?'

/-- The values of the digits of a run in which single underscores may stand between digits. -/
def digitRun? (base : Nat) : List Char → Option (List Nat)
  | [] => none
  | [c] => if isDigitOf base c then (asciiDigitValue? c).map ([·]) else none
  | c :: '_' :: rest => do
    let d ← if isDigitOf base c then asciiDigitValue? c else none
    return d :: (← digitRun? base rest)
  | c :: rest => do
    let d ← if isDigitOf base c then asciiDigitValue? c else none
    return d :: (← digitRun? base rest)

def ofDigits (base : Nat) (ds : List Nat) : Nat :=
  ds.foldl (fun n d => n * base + d) 0

def isDecimal (c : Char) : Bool :=
  isDigitOf 10 c

/-- The number that decimal digits denote. -/
def ofDecimals (cs : List Char) : Nat :=
  ofDigits 10 (cs.map fun c => (asciiDigitValue? c).getD 0)

/-- The base that a mark such as `0x` announces. -/
def markedBase? : List Char → Option Nat
  | '0' :: c :: _ =>
    if c == 'x' || c == 'X' then some 16
    else if c == 'o' || c == 'O' then some 8
    else if c == 'b' || c == 'B' then some 2
    else none
  | _ => none

/-- Drops the mark of the base, and one underscore after it. -/
def dropMark (base : Nat) (cs : List Char) : List Char :=
  if markedBase? cs = some base then
    match cs.drop 2 with
    | '_' :: rest => rest
    | rest => rest
  else cs

def isPowerOfTwo (n : Nat) : Bool :=
  n != 0 && n &&& (n - 1) == 0

/-- The magnitude of a numeral without sign and blanks. In base 0 the mark decides, base ten is the
default, and only zeros may follow a leading zero. -/
def magnitude? (base : Nat) (cs : List Char) : Option (Except Fault Nat) := do
  let actual := if base = 0 then (markedBase? cs).getD 10 else base
  let ds ← digitRun? actual (dropMark actual cs)
  let n := ofDigits actual ds
  if !isPowerOfTwo actual && ds.length > maxDigits then
    return .error (.tooLong ds.length)
  if base = 0 && (markedBase? cs).isNone && cs.head? == some '0' && n != 0 then none
  return .ok n

/-- Reads an integer. -/
def read (base : Nat) (text : List Char) : Except Fault Int :=
  if base = 1 ∨ base > 36 then .error .badBase
  else
    let plain := if text.all (·.toNat < 128) then text else text.map plainChar
    let body := ((plain.dropWhile isAsciiSpace).reverse.dropWhile isAsciiSpace).reverse
    let (negative, digits) := match body with
      | '-' :: rest => (true, rest)
      | '+' :: rest => (false, rest)
      | _ => (false, body)
    match magnitude? base digits with
    | none => .error (.malformed (String.ofList text) base)
    | some r => r.map fun n => if negative then -n else n

def writeIn (base : Nat) (n : Int) : List Char :=
  if n < 0 then '-' :: Nat.toDigits base n.natAbs else Nat.toDigits base n.natAbs

/-- Writes an integer in base ten. -/
def write (n : Int) : Except Fault String :=
  let ds := Nat.toDigits 10 n.natAbs
  if ds.length > maxDigits then .error .wideResult
  else .ok (String.ofList (if n < 0 then '-' :: ds else ds))

end PatternLint.Text.Numeral
