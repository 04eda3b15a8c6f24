/-! Characters, ranges and named classes between brackets, and what can be wrong with them. -/

namespace PatternLint.Pattern

/-- Names of the character classes. -/
def charClasses : List String :=
  ["alnum", "alpha", "ascii", "blank", "cntrl", "digit", "graph", "lower", "multibyte", "nonascii",
    "print", "punct", "space", "unibyte", "upper", "word", "xdigit"]

/-- The characters from `lo` to `hi`; a single character is a span of its own. -/
structure Span where
  lo : Char
  hi : Char
  deriving Repr, DecidableEq

namespace Span

def single (c : Char) : Span :=
  ⟨c, c⟩

def isSingle (s : Span) : Bool :=
  s.lo == s.hi

def text (s : Span) : String :=
  String.ofList [s.lo, '-', s.hi]

/-- The spans share a character, provided that neither is reversed. -/
def meets (a b : Span) : Bool :=
  a.lo ≤ b.hi && b.lo ≤ a.hi

theorem meets_comm (a b : Span) : a.meets b = b.meets a := by
  simp [meets, Bool.and_comm]

theorem meets_iff {a b : Span} (ha : a.lo ≤ a.hi) (hb : b.lo ≤ b.hi) :
    a.meets b = true ↔ ∃ c, a.lo ≤ c ∧ c ≤ a.hi ∧ b.lo ≤ c ∧ c ≤ b.hi := by
  simp only [meets, Bool.and_eq_true, decide_eq_true_eq]
  constructor
  · intro ⟨h, k⟩
    rcases Char.le_total a.lo b.lo with hl | hl
    · exact ⟨b.lo, hl, k, Char.le_refl _, hb⟩
    · exact ⟨a.lo, Char.le_refl _, ha, hl, h⟩
  · intro ⟨c, h1, h2, h3, h4⟩
    exact ⟨Char.le_trans h1 h4, Char.le_trans h3 h2⟩

end Span

/-- What is wrong with an element of a set, given an earlier element that it meets, or with a range
whose ends are in the wrong order. -/
inductive SetIssue where
  | duplicated (c : Char)
  | included (c : Char) (range : Span)
  | includes (range : Span) (c : Char)
  | overlap (earlier later : Span)
  | reversed (range : Span)
  deriving Repr, DecidableEq

/-- The issue between a new element and an earlier one that it meets. -/
def clash (earlier new : Span) : SetIssue :=
  if new.isSingle then
    if earlier.isSingle then .duplicated new.lo else .included new.lo earlier
  else if earlier.isSingle then .includes new earlier.lo
  else .overlap earlier new

/-- The issue with the first of the earlier elements that the new one meets. -/
def clash? (earlier : Array Span) (new : Span) : Option SetIssue :=
  (earlier.find? new.meets).map (clash · new)

/-- A reversed range is reported unless its ends are neighbours, the usual way to write an empty
set. -/
def reversed? (range : Span) : Option SetIssue :=
  if range.lo.toNat == range.hi.toNat + 1 then none else some (.reversed range)

end PatternLint.Pattern
