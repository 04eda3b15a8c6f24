import Mathlib.Data.List.TakeWhile
import PatternLint.Proofs.Located
import PatternLint.Proofs.Numerals
import PatternLint.Reader.Atom
import PatternLint.Value.Print

/-! The text of data that print in a form that can be read. Printing writes this text, as long as it
meets no more data than it may, unless they are nested too deep. -/

namespace PatternLint

namespace Value

mutual
/-- How many data a walk through a value meets. -/
def nodes : Value → Nat
  | list items => nodesAll items + 1
  | dotted items tail => nodesAll items + nodes tail + 1
  | vec items => nodesAll items + 1
  | _ => 1
def nodesAll : List Value → Nat
  | [] => 0
  | v :: rest => nodes v + nodesAll rest
end

section Nodes

variable (items rest : List Value) (v tail : Value)

end Nodes

mutual
/-- How many calls are under way at a time while a value is printed: one for the value, and one more
for all its items. -/
def printDepth : Value → Nat
  | list items => printDepthAll items + 2
  | dotted items tail => max (printDepthAll items + 2) (printDepth tail + 1)
  | vec items => printDepthAll items + 2
  | _ => 1
def printDepthAll : List Value → Nat
  | [] => 0
  | v :: rest => max (printDepth v) (printDepthAll rest)
end

mutual
/-- The printed form of readable data. -/
def shown : Value → List Char
  | str text => quoteText text.toList
  | int n => Text.Numeral.writeIn 10 n
  | sym name => name.toList
  | list (first :: rest) => '(' :: shown first ++ shownAfter rest ++ [')']
  | dotted (first :: rest) tail =>
    '(' :: shown first ++ shownAfter rest ++ [' ', '.', ' '] ++ shown tail ++ [')']
  | vec [] => ['[', ']']
  | vec (first :: rest) => '[' :: shown first ++ shownAfter rest ++ [']']
  | _ => ['n', 'i', 'l']
/-- The printed forms of further items, with a space before each. -/
def shownAfter : List Value → List Char
  | [] => []
  | v :: rest => ' ' :: shown v ++ shownAfter rest
end

section Shown

variable (first : Value) (rest : List Value)

end Shown

section Printing

variable (out : String) (first : Value) (rest : List Value) (calls left : Nat)

end Printing

variable {items : List Value} {v : Value}

end Value

end PatternLint

/-! Reading undoes printing: the printed form of a datum stands for it, wherever a delimiter or the
end of the text follows. -/

namespace PatternLint.Reader

variable {pos : Nat} {x : Char} {rest cs out : List Char} {c d next : Cursor} {l : Located}

/-- No atom goes on into what comes next. -/
def AtEnd (rest : List Char) : Prop :=
  ∀ x ∈ rest.head?, isDelimiter x

/-- An atom goes on up to the first delimiter and has the characters that it shows. -/
theorem scanAtom_plain (hcs : ∀ x ∈ cs, isDelimiter x = false ∧ x ≠ '\\') (hrest : AtEnd rest) :
    scanAtom out false pos (cs ++ rest) =
      .ok (String.ofList (out.reverse ++ cs), false, ⟨pos + cs.length, rest⟩) := by
  induction cs generalizing out pos with
  | nil =>
    rw [List.nil_append, List.append_nil]
    cases rest with
    | nil => rfl
    | cons x rest =>
      have hx : isDelimiter x = true := hrest x (by simp)
      have hback : x ≠ '\\' := by
        rintro rfl
        revert hx
        decide
      rw [scanAtom.eq_4 _ _ _ _ _ (by simp [hback]) (by simp [hback]), if_pos hx]
      rfl
  | cons x cs ih =>
    obtain ⟨⟨hx, hback⟩, hcs⟩ := List.forall_mem_cons.1 hcs
    rw [List.cons_append, scanAtom.eq_4 _ _ _ _ _ (by simp [hback]) (by simp [hback]),
      if_neg (by simp [hx]), ih hcs]
    simp [Nat.add_assoc, Nat.add_comm 1]

/-- The characters of a string literal. -/
def escaped (cs : List Char) : List Char :=
  cs.flatMap fun c => if c == '\\' || c == '"' then ['\\', c] else [c]

/-- The characters are the text of `v` wherever they stand before a delimiter. -/
def Denotes (text : List Char) (v : Value) : Prop :=
  ∀ pos rest, AtEnd rest → ∃ l, Stands ⟨pos, text ++ rest⟩ l ⟨pos + text.length, rest⟩ ∧ l.value = v

section Integers

open Text.Numeral

variable {n : Int}

end Integers

section Items

variable {items : List Value}

end Items

end PatternLint.Reader
