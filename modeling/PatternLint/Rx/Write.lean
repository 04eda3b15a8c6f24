import PatternLint.Rx.Set

/-! Writing structured regexps as regexp text. Everything written carries a precedence, so that
operands are bracketed only where they have to be. -/

namespace PatternLint.Rx

def bracketed (text : List Char) : List Char :=
  "\\(?:".toList ++ text ++ "\\)".toList

/-- The text of an item where at least the given precedence is needed. -/
def Item.atLeast (item : Item) (precedence : Precedence) : List Char :=
  if item.precedence.rank ≥ precedence.rank then item.text else bracketed item.text

def Item.isEmpty (item : Item) : Bool :=
  item.text.isEmpty

def emptyItem : Item :=
  ⟨[], .seq⟩

/-- Literal text. -/
def literal (text : List Char) : Item :=
  ⟨Pattern.quote text, if text.length = 1 then .atom else .seq⟩

/-- Items one after the other; empty ones leave no trace. -/
def sequence (items : List Item) : Item :=
  match items.filter fun i => !i.isEmpty with
  | [] => emptyItem
  | [item] => item
  | items => ⟨items.flatMap (·.atLeast .seq), .seq⟩

/-- Items to choose from. -/
def choice (items : List Item) : Item :=
  match items with
  | [] => ⟨unmatchable, .seq⟩
  | [item] => item
  | items => ⟨Pattern.alternation (items.map Item.text), .alt⟩

/-- Strings to choose from, tried in their order. -/
def stringChoice (texts : List (List Char)) : Except Fault Item := do
  match texts.eraseDups with
  | [text] => return literal text
  | _ => return ⟨← Pattern.alternatives texts .shy true, .atom⟩

/-- An operand with something written after it that applies to the whole of it. -/
def repeated (operand : Item) (mark : List Char) : Item :=
  if operand.isEmpty then operand else ⟨operand.atLeast .atom ++ mark, .seq⟩

def manyMark (op : Char) (greedy : Bool) : List Char :=
  if greedy then [op] else [op, '?']

def countText (n : Nat) : Except Fault (List Char) :=
  match Text.Numeral.write n with
  | .ok text => .ok text.toList
  | .error f => .error (.numeral f)

/-- The mark of a bounded repetition. -/
def boundMark (low : Nat) (high : Option Nat) : Except Fault (List Char) := do
  let body ← match high with
    | none => pure ((← countText low) ++ [','])
    | some high =>
      if high = low then countText low
      else if high < low then .error (.rx .reversedBounds)
      else pure ((← countText low) ++ ',' :: (← countText high))
  return '\\' :: '\x7b' :: body ++ ['\\', '\x7d']

def count (v : Value) : Except Fault Nat :=
  match v with
  | .int n => if n ≥ 0 then .ok n.toNat else .error (Fault.aboutRx v (.badCount v))
  | _ => .error (Fault.aboutRx v (.badCount v))

def syntaxCode (v : Value) : Except Fault (List Char) :=
  match v with
  | .sym name =>
    match syntaxCodes.lookup name with
    | some code => .ok code.toList
    | none => .error (Fault.aboutRx v (.badSyntaxClass v))
  | _ => .error (Fault.aboutRx v (.badSyntaxClass v))

def categoryCode (v : Value) : Except Fault (List Char) :=
  match v with
  | .int n =>
    if 32 < n ∧ n < 127 then .ok [Char.ofNat n.toNat]
    else .error (Fault.aboutRx v (.badCategory v))
  | _ => .error (Fault.aboutRx v (.badCategory v))

/-- Two forms that the reader takes for characters name operators. -/
def operatorName (head : Value) : Except Fault String :=
  match head with
  | .sym name => .ok name
  | .int n =>
    if n = 32 then .ok "?" else if n = 63 then .ok "??"
    else .error (Fault.aboutRx head (.badOperator head))
  | _ => .error (Fault.aboutRx head (.badOperator head))

def symbolItem (name : String) : Except Fault Item :=
  match symbols.lookup name with
  | some (text, precedence) => .ok ⟨text.toList, precedence⟩
  | none =>
    match className? name with
    | some c => .ok ⟨'[' :: classText c ++ [']'], .atom⟩
    | none => .error (.rx (.unknownSymbol name))

/-- A regexp given as text; it may hold alternatives of its own. -/
def regexpItem (text : List Char) : Item :=
  ⟨text, if Text.contains ['\\', '|'] text then .alt else if text.length = 1 then .atom else .seq⟩

/-- The negation of something that is not a form. -/
def negateAtom (v : Value) : Except Fault Item :=
  let single : Except Fault Item := do
    let code ← charCode v
    CharSet.render ⟨[(code, code)], []⟩ true
  match v with
  | .sym name =>
    match className? name with
    | some c => .ok ⟨"[^".toList ++ classText c ++ [']'], .atom⟩
    | none =>
      if name = "word-boundary" then .ok ⟨"\\B".toList, .atom⟩
      else .error (Fault.aboutRx v (.badNegation v))
  | .int _ => single
  | .str text => if text.length = 1 then single else .error (Fault.aboutRx v (.badNegation v))
  | _ => .error (Fault.aboutRx v (.badNegation v))

def texts? (forms : List Value) : Option (List (List Char)) :=
  forms.mapM fun v => v.strText?.map String.toList

/-- A group, with a number if that is not the next one. -/
def grouped (number : Option (List Char)) (body : Item) : Item :=
  let mark := match number with
    | some number => '?' :: number ++ [':']
    | none => []
  ⟨"\\(".toList ++ mark ++ body.text ++ "\\)".toList, .atom⟩

/-- An escape with a letter and a code behind it. -/
def coded (letter : Char) (code : List Char) : Item :=
  ⟨'\\' :: letter :: code, .atom⟩

/-- The regexp of an operator whose arguments are no forms of their own. -/
def writeAtom? (operator : Operator) (args : List Value) : Option (Except Fault Item) :=
  match operator, args with
  | .or, args => (texts? args).map fun texts =>
    if texts.isEmpty then .ok (choice []) else stringChoice texts
  | .set, args => some do (← CharSet.ofArguments args).render false
  | .backReference, [n] => some do
    let n ← count n
    if n = 0 ∨ 9 < n then .error (.rx .backReference)
    return ⟨'\\' :: (← countText n), .atom⟩
  | .syntaxClass, [arg] => some do return coded 's' (← syntaxCode arg)
  | .category, [arg] => some do return coded 'c' (← categoryCode arg)
  | .literal, [.str text] => some (.ok (literal text.toList))
  | .regexp, [.str text] => some (.ok (regexpItem text.toList))
  | _, _ => none

/-- What an operator makes of the items of all its arguments. -/
def Operator.join? (greedy : Bool) : Operator → Option (List Item → Item)
  | .seq => some sequence
  | .or => some choice
  | .group => some fun items => grouped none (sequence items)
  | .many op follows =>
    some fun items => repeated (sequence items) (manyMark op (greedy && follows))
  | _ => none

mutual

/-- The regexp of a form, with the current greediness. -/
def write (greedy : Bool) (form : Value) : Except Fault Item :=
  match form with
  | .str text => .ok (if text.isEmpty then emptyItem else literal text.toList)
  | .int n => do return ⟨Pattern.quoteChar (← Pattern.charOf n), .atom⟩
  | .sym name => symbolItem name
  | .nil | .list [] => .error (.rx .emptyForm)
  | .list (head :: args) => do
    let name ← operatorName head
    match operators.lookup name with
    | none => .error (.rx (.unknownForm name))
    | some operator =>
      match writeAtom? operator args with
      | some item => item
      | none =>
        match operator.join? greedy with
        | some join => return join (← writeAll greedy args)
        | none => writeBy greedy name operator args
  | v => .error (Fault.aboutRx v (.badForm v))

/-- The regexp of an operator whose first arguments stand apart from the others. -/
def writeBy (greedy : Bool) (name : String) (operator : Operator) (args : List Value) :
    Except Fault Item :=
  match operator, args with
  | .not, [arg] => negate greedy arg
  | .exactly, n :: body => do
    let n ← count n
    let operand := sequence (← writeAll greedy body)
    return repeated operand (← boundMark n (some n))
  | .atLeast, n :: body => do
    let n ← count n
    let operand := sequence (← writeAll greedy body)
    return repeated operand (← boundMark n none)
  | .between, n :: m :: body => do
    let n ← count n
    let m ← count m
    let operand := sequence (← writeAll greedy body)
    return repeated operand (← boundMark n (some m))
  | .counted, n :: .int m :: body => do
    let n ← count n
    let m ← count (.int m)
    let operand := sequence (← writeAll greedy body)
    return repeated operand (← boundMark n (some m))
  | .counted, n :: body => do
    let n ← count n
    let operand := sequence (← writeAll greedy body)
    return repeated operand (← boundMark n (some n))
  | .numberedGroup, n :: body => do
    let n ← count n
    if n = 0 then .error (.rx .groupNumber)
    let number ← countText n
    return grouped (some number) (sequence (← writeAll greedy body))
  | .minimal, [arg] => write false arg
  | .maximal, [arg] => write true arg
  | _, _ => .error (.rx (.unknownForm name))

/-- The regexp of everything that one thing does not match. -/
def negate (greedy : Bool) (arg : Value) : Except Fault Item :=
  match arg with
  | .list (.sym name :: args) =>
    match operators.lookup name, args with
    | some .set, args => do (← CharSet.ofArguments args).render true
    | some .not, [inner] => write greedy inner
    | some .syntaxClass, [code] => do return coded 'S' (← syntaxCode code)
    | some .category, [code] => do return coded 'C' (← categoryCode code)
    | _, _ => .error (Fault.aboutRx arg (.badNegation arg))
  | v => negateAtom v

def writeAll (greedy : Bool) (forms : List Value) : Except Fault (List Item) :=
  match forms with
  | [] => .ok []
  | form :: rest => do
    let item ← write greedy form
    return item :: (← writeAll greedy rest)

end

/-- The regexp of forms in sequence. -/
def ofForms (forms : List Value) : Except Fault String := do
  return String.ofList (sequence (← writeAll true forms)).text

/-- The regexp of one form, bracketed unless that is not wanted. -/
def ofForm (form : Value) (noGroup : Bool) : Except Fault String := do
  let item ← write true form
  return String.ofList (if noGroup || item.isEmpty then item.text else item.atLeast .atom)

end PatternLint.Rx
