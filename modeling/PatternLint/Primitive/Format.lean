import PatternLint.Primitive.Text

/-! Format strings. A conversion has an argument number, flags, a width and a precision, all of them
optional, before the character that tells its kind. -/

namespace PatternLint.Primitive

open Text.Numeral (isDecimal)

structure Spec where
  position : Option (List Char)
  flags : List Char
  width : List Char
  precision : Option (List Char)
  conversion : Char
  deriving Repr, DecidableEq

namespace Spec

/-- An argument number and the text behind its mark, if there is one. -/
def splitPosition (cs : List Char) : Option (List Char) × List Char :=
  let digits := cs.takeWhile isDecimal
  match digits, cs.drop digits.length with
  | _ :: _, '$' :: rest => (some digits, rest)
  | _, _ => (none, cs)

/-- A precision and the text behind it, if there is one. -/
def splitPrecision (cs : List Char) : Option (List Char) × List Char :=
  match cs with
  | '.' :: rest =>
    let digits := rest.takeWhile isDecimal
    if digits.isEmpty then (none, cs) else (some digits, rest.drop digits.length)
  | _ => (none, cs)

def isFlag (c : Char) : Bool :=
  c ∈ ['-', '+', ' ', '#', '0']

/-- The conversion behind a percent sign, and the text behind it. -/
def read? (cs : List Char) : Option (Spec × List Char) :=
  let (position, cs) := splitPosition cs
  let flags := cs.takeWhile isFlag
  let cs := cs.drop flags.length
  let width := cs.takeWhile isDecimal
  let (precision, cs) := splitPrecision (cs.drop width.length)
  match cs with
  | [] => none
  | c :: rest => some (⟨position, flags, width, precision, c⟩, rest)

theorem splitPosition_length (cs : List Char) : (splitPosition cs).2.length ≤ cs.length := by
  unfold splitPosition
  dsimp only
  split
  · rename_i h
    have := congrArg List.length h
    simp at this ⊢
    omega
  · exact Nat.le_refl _

theorem splitPrecision_length (cs : List Char) : (splitPrecision cs).2.length ≤ cs.length := by
  unfold splitPrecision
  split
  · dsimp only
    split
    · exact Nat.le_refl _
    · simp; omega
  · exact Nat.le_refl _

theorem read?_shorter {cs : List Char} {s : Spec} {rest : List Char}
    (h : read? cs = some (s, rest)) : rest.length < cs.length := by
  unfold read? at h
  dsimp only at h
  split at h
  · cases h
  · rename_i heq
    cases h
    have h1 := splitPosition_length cs
    have h2 := splitPrecision_length
      (((splitPosition cs).2.drop ((splitPosition cs).2.takeWhile isFlag).length).drop
        (((splitPosition cs).2.drop ((splitPosition cs).2.takeWhile isFlag).length).takeWhile
          isDecimal).length)
    rw [heq] at h2
    simp at h2
    omega

end Spec

/-- What a conversion writes: a percent sign, or an argument given by its index. -/
inductive Directive where
  | percent
  | argument (index : Int) (spec : Spec)
  deriving Repr, DecidableEq

def readNat (digits : List Char) : Except Fault Nat :=
  (Text.Numeral.read 10 digits).mapError Fault.numeral |>.map Int.toNat

/-- The directive behind a percent sign, the index of the next argument, and the text behind it. -/
def directive (next : Int) (cs : List Char) : Except Fault (Directive × Int × List Char) :=
  match Spec.read? cs with
  | none => .error (.signal .formatEnd)
  | some (spec, rest) =>
    if spec.conversion = '%' then .ok (.percent, next, rest)
    else match spec.position with
      | none => .ok (.argument next spec, next + 1, rest)
      | some digits =>
        match readNat digits with
        | .ok n => .ok (.argument (n - 1) spec, n, rest)
        | .error f => .error f

theorem directive_shorter {next : Int} {cs : List Char} {r : Directive × Int × List Char}
    (h : directive next cs = .ok r) : r.2.2.length < cs.length := by
  unfold directive at h
  split at h
  · cases h
  · rename_i heq
    have := Spec.read?_shorter heq
    split at h
    · cases h; exact this
    · split at h
      · cases h; exact this
      · split at h
        · cases h; exact this
        · cases h

structure Conversion where
  start : Nat
  stop : Nat
  directive : Directive
  deriving Repr, DecidableEq

/-- The conversions of a format string from `pos` on, after those already found. -/
def conversionsFrom (found : List Conversion) (pos : Nat) (next : Int) (cs : List Char) :
    Except Fault (List Conversion) :=
  match _h : cs with
  | [] => .ok found.reverse
  | '%' :: rest =>
    match _hd : directive next rest with
    | .error f => .error f
    | .ok (d, next, after) =>
      let stop := pos + 1 + (rest.length - after.length)
      conversionsFrom (⟨pos, stop, d⟩ :: found) stop next after
  | _ :: rest => conversionsFrom found (pos + 1) next rest
termination_by cs.length
decreasing_by
  · have := directive_shorter _hd
    simp at this ⊢
    omega
  · simp

def conversions (cs : List Char) : Except Fault (List Conversion) :=
  conversionsFrom [] 0 0 cs

/-- Fills up to a width: with zeros behind the sign, with blanks on the left, or on the right. -/
def pad (text flags : List Char) (width : Nat) (numeric : Bool) : List Char :=
  let fill := width - text.length
  if '-' ∈ flags then text ++ List.replicate fill ' '
  else if '0' ∈ flags ∧ numeric then
    let sign := text.take (signLength text)
    sign ++ List.replicate fill '0' ++ text.drop sign.length
  else List.replicate fill ' ' ++ text

def upperDigits (cs : List Char) : List Char :=
  cs.map Char.toUpper

def intBody (conversion : Char) (n : Int) : Except Fault (List Char) :=
  match conversion with
  | 'd' => ((Text.Numeral.write n).mapError Fault.numeral).map String.toList
  | 'o' => .ok (Text.Numeral.writeIn 8 n)
  | 'x' => .ok (Text.Numeral.writeIn 16 n)
  | _ => .ok (upperDigits (Text.Numeral.writeIn 16 n))

/-- The mark of the base stands before the sign. -/
def intText (conversion : Char) (flags : List Char) (n : Int) : Except Fault (List Char) := do
  let sign :=
    if n < 0 then [] else if '+' ∈ flags then ['+'] else if ' ' ∈ flags then [' '] else []
  let text := sign ++ (← intBody conversion n)
  return if '#' ∈ flags ∧ (conversion = 'x' ∨ conversion = 'X') then '0' :: conversion :: text
    else text

def floatText (conversion : Char) (flags : List Char) (precision : Nat) (x : Float) : List Char :=
  match Decimal.Double.ofFloat x with
  | .nan => "nan".toList
  | .infinite true => "-inf".toList
  | .infinite false => (if '+' ∈ flags then ['+'] else []) ++ "inf".toList
  | .finite s =>
    let body := match conversion with
      | 'e' => Decimal.exponentialText s precision
      | 'f' => Decimal.fixedText s precision
      | _ => Decimal.generalText s precision
    let text := Decimal.signed s.negative body
    if '+' ∈ flags ∧ (!s.negative ∨ s.significand = 0) then '+' :: text else text

def convert (spec : Spec) (arg : Value) : Except Fault (List Char) := do
  let width ← if spec.width.isEmpty then pure 0 else readNat spec.width
  if width > maxLength then .error (.signal .formatWidth)
  let precision ← spec.precision.mapM readNat
  if precision.any (· > maxLength) then .error (.signal .formatWidth)
  let cut (text : String) : List Char := match precision with
    | some n => text.toList.take n
    | none => text.toList
  match spec.conversion with
  | 's' => return pad (cut (← arg.princ)) spec.flags width false
  | 'S' => return pad (cut (← arg.prin1)) spec.flags width false
  | 'c' => return pad [← Pattern.charOf (← arg.asInt)] spec.flags width false
  | 'd' | 'o' | 'x' | 'X' =>
    let n ← (← arg.asNumber).truncate
    return pad (← intText spec.conversion spec.flags n) spec.flags width true
  | 'e' | 'f' | 'g' =>
    let x ← (← arg.asNumber).round
    return pad (floatText spec.conversion spec.flags (precision.getD 6) x) spec.flags width true
  | c => .error (.signal (.formatOperation c))

/-- The argument at an index; the one before the first is the last one. -/
def argument (args : List Value) (index : Int) : Except Fault Value :=
  if index ≥ args.length then .error (.signal .formatArguments)
  else match if index < 0 then args.getLast? else args[index.toNat]? with
    | some arg => .ok arg
    | none => .error .noElement

/-- Formats the rest of a text behind what is already written, which is given in reverse. -/
def formatFrom (args : List Value) (out : List Char) (next : Int) (cs : List Char) :
    Except Fault (List Char) :=
  match _h : cs with
  | [] => .ok out.reverse
  | '%' :: rest =>
    match _hd : directive next rest with
    | .error f => .error f
    | .ok (.percent, next, after) => formatFrom args ('%' :: out) next after
    | .ok (.argument index spec, next, after) =>
      match argument args index with
      | .error f => .error f
      | .ok arg =>
        match convert spec arg with
        | .error f => .error f
        | .ok text => formatFrom args (text.reverse ++ out) next after
  | c :: rest => formatFrom args (c :: out) next rest
termination_by cs.length
decreasing_by
  · have := directive_shorter _hd
    simp at this ⊢
    omega
  · have := directive_shorter _hd
    simp at this ⊢
    omega
  · simp

def format : Primitive := leading fun fmt args => do
  let cs ← formatFrom args [] 0 (← fmt.asChars)
  if cs.length > maxLength then .error (.signal .stringTooLong) else return .ofChars cs

end PatternLint.Primitive
