import PatternLint.Text.Numeral
import PatternLint.Value.Basic

/-! A place in a text, and what can go wrong while data are read from there. -/

namespace PatternLint.Reader

inductive Problem where
  | endOfFile
  | badSyntax (text : String)
  | dotContext
  | badRadix (text : String)
  | badEscape
  | badUnicodeEscape
  | openCharName
  | badCharName (name : String)
  | modifiedNothing
  | badStringProperties
  | badBoolVector
  | undefinedLabel (label : Nat)
  | pathMismatch
  deriving Repr, DecidableEq

def Problem.message : Problem → String
  | .endOfFile => "End of file during parsing"
  | .badSyntax text => "Invalid read syntax: " ++ text
  | .dotContext => "Invalid read syntax: . in wrong context"
  | .badRadix text => "Invalid radix number " ++ text
  | .badEscape => "Invalid escape character syntax"
  | .badUnicodeEscape => "Non-hex character used for Unicode escape"
  | .openCharName => "Invalid character name"
  | .badCharName name => "Invalid character name " ++ name
  | .modifiedNothing => "Invalid modifier in string"
  | .badStringProperties => "Invalid string property list"
  | .badBoolVector => "Invalid bool-vector syntax"
  | .undefinedLabel label => s!"Undefined shared object #{label}#"
  | .pathMismatch => "Path does not match source"

/-- An unknown extension of the syntax is told apart from other malformed text, since it can be
stepped over. A numeral may be refused wherever the text holds one. -/
inductive Fault where
  | malformed (offset : Nat) (problem : Problem)
  | unknownExtension (offset : Nat) (mark : String)
  | numeral (f : Text.Numeral.Fault)
  deriving Repr, DecidableEq

/-- A place in a text: the characters before it are counted, those after it listed. -/
structure Cursor where
  pos : Nat
  rest : List Char
  deriving Repr, DecidableEq

namespace Cursor

def start (text : List Char) : Cursor :=
  ⟨0, text⟩

/-- The place `pos` of a text; it may lie behind the end. -/
def of (text : List Char) (pos : Nat) : Cursor :=
  ⟨pos, text.drop pos⟩

def drop (c : Cursor) (n : Nat) : Cursor :=
  ⟨c.pos + n, c.rest.drop n⟩

/-- Drops `n` characters, or all that are left. -/
def skip (c : Cursor) (n : Nat) : Cursor :=
  c.drop (c.rest.take n).length

def startsWith (c : Cursor) (text : String) : Bool :=
  text.toList.isPrefixOf c.rest

def fail (c : Cursor) (problem : Problem) : Except Fault α :=
  .error (.malformed c.pos problem)

@[simp] theorem drop_zero (c : Cursor) : c.drop 0 = c := by
  cases c; simp [drop]

theorem drop_drop (c : Cursor) (m n : Nat) : (c.drop m).drop n = c.drop (m + n) := by
  simp [drop, Nat.add_assoc]

theorem length_drop (c : Cursor) (n : Nat) : (c.drop n).rest.length = c.rest.length - n := by
  simp [drop]

@[simp] theorem of_zero (text : List Char) : of text 0 = start text := rfl

end Cursor

end PatternLint.Reader
