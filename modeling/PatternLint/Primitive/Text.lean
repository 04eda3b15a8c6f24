import PatternLint.Pattern.Build
import PatternLint.Primitive.Number
import PatternLint.Text.Case
import PatternLint.Text.Fold

/-! Operations on texts: comparing, cutting, joining and searching them, and converting between
texts, characters and numbers. -/

namespace PatternLint.Primitive

open Text.Numeral (isDecimal ofDecimals)

def compareNames (test : String → String → Bool) : Primitive := binary fun a b => do
  let x ← a.asName
  let y ← b.asName
  return .ofBool (test x y)

/-- Tests the beginning or the end of a text, perhaps regardless of case. -/
def affix (test : List Char → List Char → Bool) : Primitive := binaryOr fun part whole fold => do
  let p ← part.asChars
  let s ← whole.asChars
  return .ofBool (if fold.isNil then test p s else test (Text.Case.lower p) (Text.Case.lower s))

/-- The text of a sequence of characters. -/
def ofCodes (codes : List Value) : Except Fault (List Char) :=
  codes.mapM fun v => do Pattern.charOf (← v.asInt)

def textOf : Value → Except Fault (List Char)
  | .str text => .ok text.toList
  | v => do ofCodes (← v.asSequence)

def concat : Primitive := fun args => do
  let cs := (← args.mapM textOf).flatten
  if cs.length > maxLength then .error (.signal .stringTooLong) else return .ofChars cs

/-- An index, counted from the end if it is negative. -/
def indexFrom (length : Nat) (n : Int) : Int :=
  if n < 0 then n + length else n

/-- The part between two indices, the end of the sequence by default. -/
def slice (items : List α) (start stop : Value) : Except Fault (List α) := do
  let i := indexFrom items.length (← start.asIntOr 0)
  let j := indexFrom items.length (← stop.asIntOr items.length)
  if 0 ≤ i ∧ i ≤ j ∧ j ≤ items.length then return (items.take j.toNat).drop i.toNat
  else .error (.signal .outOfRange)

def substring : Primitive := flexible 1 2 fun
  | [.vec items, start, stop] => do return .vec (← slice items start stop)
  | [s, start, stop] => do return .ofChars (← slice (← s.asChars) start stop)
  | _ => .error .arity

def string : Primitive := fun args => do
  return .ofChars (← ofCodes args)

def firstChar (s : Value) : Except Fault Value := do
  match ← s.asChars with
  | [] => return .int 0
  | c :: _ => return .int c.toNat

def charText (c : Value) : Except Fault Value := do
  return .ofChars [← Pattern.charOf (← c.asInt)]

/-- Applies a case mapping to a text, or to a character if one character comes out. -/
def mapCase (f : List Char → List Char) : Primitive := unary fun
  | .int n => do
    match f [← Pattern.charOf n] with
    | [c] => return .int c.toNat
    | _ => return .int n
  | v => do return .ofChars (f (← v.asChars))

def joinTexts (texts sep : Value) : Except Fault Value := do
  let sep ← if sep.isNil then pure [] else sep.asChars
  return .ofChars (Text.join sep (← (← texts.asList).mapM Value.asChars))

def makeString : Primitive := binaryOr fun n c _ => do
  let n ← n.asInt
  if n < 0 ∨ maxLength < n then .error (.signal .outOfRange)
  else return .ofChars (List.replicate n.toNat (← Pattern.charOf (← c.asInt)))

def replaceText (old new whole : Value) : Except Fault Value := do
  let p ← old.asChars
  if p.isEmpty then .error (.signal .emptyText)
  else
    let s ← whole.asChars
    return .ofChars (Text.replace p (← new.asChars) s)

/-- The index of the first occurrence at or after a start. -/
def searchText (needle whole start : Value) : Except Fault Value := do
  let n ← start.asIntOr 0
  let s ← whole.asChars
  let p ← needle.asChars
  let i := (indexFrom s.length n).toNat
  if i > s.length then return .nil
  return ((Text.find? p (s.drop i)).map fun k => Value.int (k + i)).getD .nil

def numberText (x : Value) : Except Fault Value := do
  match ← x.asNumber with
  | .int n => return .str (← (Text.Numeral.write n).mapError Fault.numeral)
  | .float x => return .str (Value.floatText x)

/-! Numbers at the start of a text. -/

def signLength : List Char → Nat
  | '-' :: _ | '+' :: _ => 1
  | _ => 0

/-- The length of an exponent with its mark, zero if there is none. -/
def exponentLength : List Char → Nat
  | 'e' :: rest =>
    let sign := signLength rest
    let digits := ((rest.drop sign).takeWhile isDecimal).length
    if digits = 0 then 0 else 1 + sign + digits
  | _ => 0

def exponentValue (cs : List Char) : Int :=
  match cs.drop 1 with
  | '-' :: digits => -(ofDecimals digits : Int)
  | '+' :: digits => ofDecimals digits
  | digits => ofDecimals digits

/-- The double written at the start of a text: digits with a point, an exponent, or both. -/
def leadingFloat? (cs : List Char) : Option Float :=
  let body := cs.drop (signLength cs)
  let whole := body.takeWhile isDecimal
  let behind := body.drop whole.length
  let (pointed, fraction) := match behind with
    | '.' :: rest => (true, rest.takeWhile isDecimal)
    | _ => (false, [])
  let tail := behind.drop (fraction.length + if pointed then 1 else 0)
  let exponent := tail.take (exponentLength tail)
  if (whole.isEmpty && fraction.isEmpty) || (!pointed && exponent.isEmpty) then none
  else some (Decimal.ofDecimal (cs.head? == some '-') (ofDecimals (whole ++ fraction))
    (exponentValue exponent - fraction.length))

/-- The number of digits that a base offers; a negative base takes digits away from all that there
are. -/
def digitCount (base : Int) : Nat :=
  (if base < 0 then base + 36 else min base 36).toNat

/-- The value of a digit, regardless of case. -/
def foldedDigit? (c : Char) : Option Nat :=
  Text.asciiDigitValue? (Text.foldCase c)

/-- The integer written at the start of a text by a sign and characters that `isDigit` accepts; zero
if there is none. -/
def leadingInt (isDigit : Char → Bool) (base : Nat) (cs : List Char) : Except Fault Value := do
  let sign := signLength cs
  let digits := (cs.drop sign).takeWhile isDigit
  if digits.isEmpty then return .int 0
  Value.ofInt (← (Text.Numeral.read base (cs.take (sign + digits.length))).mapError Fault.numeral)

/-- A base that is no base of numerals is taken as base one, which is refused. -/
def numeralBase (base : Int) : Nat :=
  if base < 2 then 1 else base.toNat

def parseNumber (s base : Value) : Except Fault Value := do
  let cs := (← s.asChars).dropWhile fun c => c == ' ' || c == '\t'
  let base ← base.asIntOr 10
  if base = 10 then
    match leadingFloat? cs with
    | some x => return .float x
    | none => leadingInt isDecimal 10 cs
  else
    let count := digitCount base
    if count = 0 then .error .emptyDigitClass
    else leadingInt (fun c => (foldedDigit? c).any (· < count)) (numeralBase base) cs

def symbolName (v : Value) : Except Fault Value :=
  if v.isNil then .ok (.str "nil")
  else match v with
    | .sym name => .ok (.str name)
    | v => .error (.wrongType "symbolp" v)

def ofTexts (texts : List (List Char)) : Except Fault Value :=
  Value.ofItems (texts.map Value.ofChars)

/-- Splits at white space, or at a separator that has no special characters. -/
def splitText : Primitive := flexible 1 3 fun
  | [s, sep, omitEmpty, trim] => do
    let cs ← s.asChars
    if !trim.isNil then .error (.signal .splitTrim)
    else if sep.isNil then ofTexts (Text.words Text.isAsciiSpace cs)
    else
      let p ← sep.asChars
      if p.isEmpty || p.any (· ∈ Pattern.regexpSpecials) then .error (.signal .splitSeparator)
      else
        let pieces := Text.split p cs
        ofTexts (if omitEmpty.isNil then pieces else pieces.filter fun t => !t.isEmpty)
  | _ => .error .arity

def isTrimmed (c : Char) : Bool :=
  c ∈ [' ', '\t', '\n', '\r']

/-- Trims a text with the default regexp only. -/
def trimmed (trim : (Char → Bool) → List Char → List Char) (s : List Char) (regexp : Value) :
    Except Fault (List Char) :=
  if regexp.isNil then .ok (trim isTrimmed s) else .error (.signal .trimRegexp)

def trimBoth : Primitive := flexible 1 2 fun
  | [s, left, right] => do
    let cs ← trimmed Text.trimLeft (← s.asChars) left
    return .ofChars (← trimmed Text.trimRight cs right)
  | _ => .error .arity

def trimSide (trim : (Char → Bool) → List Char → List Char) : Primitive :=
  unaryOr fun s regexp => do
  return .ofChars (← trimmed trim (← s.asChars) regexp)

/-! Regexps. -/

def mapText (f : List Char → List Char) : Primitive := unary fun s => do
  return .ofChars (f (← s.asChars))

def charset (chars : Value) : Except Fault Value := do
  return .ofChars (← Pattern.charset (← (← chars.asSequence).mapM Value.asInt))

def groupingOf (paren : Value) : Pattern.Grouping :=
  match paren with
  | .sym "words" => .word
  | .sym "symbols" => .symbol
  | v => if v.isNil then .shy else .capturing

def alternatives : Primitive := flexible 1 2 fun
  | [texts, paren, keepOrder] => do
    let texts ← (← texts.asList).mapM Value.asChars
    return .ofChars (← Pattern.alternatives texts (groupingOf paren) (!keepOrder.isNil))
  | _ => .error .arity

def groupDepth (regexp : Value) : Except Fault Value := do
  return .int (Pattern.groupDepth (← regexp.asChars))

end PatternLint.Primitive
