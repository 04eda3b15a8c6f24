import PatternLint.Decimal.Notation
import PatternLint.Text.Numeral
import PatternLint.Value.Basic

/-! How a value is shown inside an error message: it tells strings, symbols and the kinds of list
apart, and is not meant to be read back. -/

namespace PatternLint.Value

mutual
def display : Value → String
  | nil => "nil"
  | str text => Text.quoted text
  | int n => toString n
  | float x => String.ofList (Decimal.shortestText x)
  | sym name => "Symbol(" ++ Text.quoted name ++ ")"
  | list items => "[" ++ displayAll ", " items ++ "]"
  | dotted items tail => "([" ++ displayAll ", " items ++ "], " ++ display tail ++ ")"
  | vec items => "[" ++ displayAll " " items ++ "]"
  | closure formals body _ _ =>
    "(lambda (" ++ (match formals with | list items => displayCode items | _ => "") ++ ") " ++
      displayCode body ++ ")"
  | unknown => "UNKNOWN"
def displayAll (sep : String) : List Value → String
  | [] => ""
  | [v] => display v
  | v :: rest => display v ++ sep ++ displayAll sep rest
/-- In the text of a closure strings and symbols stand for themselves. -/
def displayCode : List Value → String
  | [] => ""
  | [v] => displayBare v
  | v :: rest => displayBare v ++ " " ++ displayCode rest
def displayBare : Value → String
  | str text => text
  | sym name => name
  | v => display v
end

def displayLimit : Nat := pow10 Text.Numeral.maxDigits

mutual
/-- No integer in the value is too long to be written. -/
def isDisplayable : Value → Bool
  | int n => n.natAbs < displayLimit
  | list items => allDisplayable items
  | dotted items tail => allDisplayable items && isDisplayable tail
  | vec items => allDisplayable items
  | closure formals body _ _ =>
    (match formals with | list items => allDisplayable items | _ => true) && allDisplayable body
  | _ => true
def allDisplayable : List Value → Bool
  | [] => true
  | v :: rest => isDisplayable v && allDisplayable rest
end

end PatternLint.Value
