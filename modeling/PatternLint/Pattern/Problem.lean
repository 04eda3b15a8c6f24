import PatternLint.Text.Numeral

/-! What makes a pattern impossible to parse, and how a failed check is reported. -/

namespace PatternLint.Pattern

inductive Problem where
  | openGroup
  | unmatchedClose
  | trailingBackslash
  | badGroup
  | badSyntaxClass
  | badCategory
  | badBoundary
  | badBackReference
  | badInterval
  | openSet
  | badCharClass (name : String)
  | strayBackslash
  | noCharClass (name : String)
  deriving Repr, DecidableEq

def Problem.message : Problem → String
  | .openGroup => "Missing \\)"
  | .unmatchedClose => "Unmatched \\)"
  | .trailingBackslash => "Backslash at end of regexp"
  | .badGroup => "Invalid \\(? syntax"
  | .badSyntaxClass => "Invalid \\s syntax"
  | .badCategory => "Invalid \\c category"
  | .badBoundary => "Invalid \\_ sequence"
  | .badBackReference => "Invalid back reference"
  | .badInterval => "Invalid \\\x7b\\\x7d syntax"
  | .openSet => "Unterminated character alternative"
  | .badCharClass name => "Invalid character class `" ++ name ++ "'"
  | .strayBackslash => "Stray `\\' at end of string"
  | .noCharClass name => "No character class `[:" ++ name ++ ":]'"

/-- The pattern is malformed at some place, or holds a number that cannot be read. -/
inductive ParseFault where
  | malformed (pos : Nat) (problem : Problem)
  | numeral (f : Text.Numeral.Fault)
  deriving Repr, DecidableEq

/-- A check that could not be completed: what to say, and the place if there is one. Any number may
stand for a place, also one at which the checked string has no character. -/
structure Failure where
  text : String
  offset : Option Int
  deriving Repr, DecidableEq

def ParseFault.failure : ParseFault → Failure
  | .malformed pos problem => ⟨problem.message, some pos⟩
  | .numeral f => ⟨f.message, none⟩

/-- A complaint is a place in the pattern, or any other number, and a message. -/
abbrev Complaint := Int × String

/-- Checks one string. -/
abbrev Checker := String → Except Failure (List Complaint)

end PatternLint.Pattern
