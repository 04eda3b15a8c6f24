import PatternLint.Reader.Datum

/-! Stepping over data token by token, and reading all data of a text. -/

namespace PatternLint.Reader

/-- The place behind the datum at or after `c`, found without building it; `depth` structures are
open. Unknown extensions of the syntax are stepped over. -/
def skipFrom (origin : Nat) (depth : Nat) (c : Cursor) : Except Fault Cursor :=
  match _h : token? true c with
  | .error f => .error f
  | .ok none => malformed origin .endOfFile
  | .ok (some (tok, next)) =>
    match tok.lexeme with
    | .opener _ => skipFrom origin (depth + 1) next
    | .closer k =>
      match depth with
      | 0 => malformed tok.start (.badSyntax k.text)
      | 1 => .ok next
      | d + 2 => skipFrom origin (d + 1) next
    | .sugar _ | .labelDef _ | .boolVector _ | .extension | .dot => skipFrom origin depth next
    | _ => if depth = 0 then .ok next else skipFrom origin depth next
termination_by c.rest.length
decreasing_by all_goals exact token?_shorter _h

def skipDatum (c : Cursor) : Except Fault Cursor :=
  skipFrom c.pos 0 c

/-- The data of a text with their offsets, up to the end or the first fault. -/
structure Contents where
  forms : List (Value × Nat)
  fault : Option Fault

/-- Reads data from `c` on, in a text of `size` characters. A datum with an unknown extension of the
syntax is left out. Every round takes at least one character, which bounds their number. -/
def readFrom (size : Nat) : Nat → List (Value × Nat) → Cursor → Contents
  | 0, forms, _ => ⟨forms.reverse, none⟩
  | bound + 1, forms, c =>
    match skipBlanks c with
    | .error f => ⟨forms.reverse, some (.numeral f)⟩
    | .ok here =>
      if here.rest.isEmpty then ⟨forms.reverse, none⟩
      else match datum size here with
        | .ok (v, next) => readFrom size bound ((v, here.pos) :: forms) next
        | .error (.unknownExtension _ _) =>
          match skipDatum here with
          | .ok next => readFrom size bound forms next
          | .error f => ⟨forms.reverse, some f⟩
        | .error f => ⟨forms.reverse, some f⟩

/-- All data of a text. -/
def read (text : List Char) : Contents :=
  readFrom text.length (text.length + 1) [] (Cursor.start text)

/-- The first datum of a text. -/
def readOne (text : List Char) : Except Fault Value :=
  match read text with
  | ⟨(v, _) :: _, _⟩ => .ok v
  | ⟨[], some f⟩ => .error f
  | ⟨[], none⟩ => malformed 0 .endOfFile

end PatternLint.Reader
