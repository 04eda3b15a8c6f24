import PatternLint.Text.Interval
import PatternLint.Text.CaseTable
import PatternLint.Text.Word

/-! Full case mapping of texts: one character may become several, and a sigma that ends a word
has a lower-case form of its own. -/

namespace PatternLint.Text.Case

def shift? (table : List (Nat × Nat × Nat × Int)) (n : Nat) : Option Nat :=
  table.findSome? fun (first, last, step, move) =>
    if first ≤ n && n ≤ last && (n - first) % step == 0 then some (n + move).toNat else none

def expansion? (table : List (Nat × List Nat)) (n : Nat) : Option (List Char) :=
  (table.lookup n).map (·.map Char.ofNat)

def upperChar (c : Char) : List Char :=
  match expansion? upperExpansions c.toNat with
  | some cs => cs
  | none => [((shift? upperShifts c.toNat).map Char.ofNat).getD c]

def titleChar (c : Char) : List Char :=
  (expansion? titleForms c.toNat).getD (upperChar c)

/-- A dotted capital I keeps its dot as a mark of its own. -/
def lowerChar (c : Char) : List Char :=
  if c == Char.ofNat 0x130 then ['i', Char.ofNat 0x307]
  else [((shift? lowerShifts c.toNat).map Char.ofNat).getD c]

def isCased (c : Char) : Bool :=
  Interval.covers casedIntervals c.toNat

def isIgnorable (c : Char) : Bool :=
  Interval.covers ignorableIntervals c.toNat

/-- The nearest character that is not passed over has a case. -/
def meetsCased (cs : List Char) : Bool :=
  ((cs.find? fun c => !isIgnorable c).map isCased).getD false

/-- The lower-case form of a character between others, given from the nearest on. A sigma ends a
word if a cased character stands before it and none after it. -/
def lowerBetween (before : List Char) (c : Char) (after : List Char) : List Char :=
  if c == 'Σ' then
    if meetsCased before && !meetsCased after then ['ς'] else ['σ']
  else lowerChar c

/-- Lowers the characters behind `before`, and puts the result behind `out`; both are reversed. -/
def lowerOnto (out before : List Char) : List Char → List Char
  | [] => out.reverse
  | c :: rest => lowerOnto ((lowerBetween before c rest).reverse ++ out) (c :: before) rest

def upper (cs : List Char) : List Char :=
  cs.flatMap upperChar

def lower (cs : List Char) : List Char :=
  lowerOnto [] [] cs

/-- A word with its first character in title form and the others lowered. -/
def capitalizeWord : List Char → List Char
  | [] => []
  | c :: rest => lowerOnto (titleChar c).reverse [c] rest

/-- Capitalizes every maximal run of word characters. -/
def capitalize (cs : List Char) : List Char :=
  (cs.splitBy fun a b => isWord a && isWord b).flatMap fun run =>
    if run.all isWord then capitalizeWord run else run

end PatternLint.Text.Case
