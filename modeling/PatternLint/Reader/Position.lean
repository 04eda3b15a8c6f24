import PatternLint.Reader.Toplevel

/-! Where the parts of a datum stand in the text. A path names a part by the indices of
the steps that lead to it, innermost first; an abbreviation counts as one element, and so
does the tail after a dot. -/

namespace PatternLint.Reader

abbrev Path := List Nat

/-- A dot that stands alone, as far as white space and parentheses tell. -/
def atDot (c : Cursor) : Bool :=
  match c.rest with
  | ['.'] => true
  | '.' :: x :: _ => Text.isBlank x || x == '(' || x == ')'
  | _ => false

/-- Abbreviations, the longer before those they begin with. -/
def sugarMarks : List String :=
  [Sugar.function, .splice, .quote, .backquote, .unquote].map Sugar.text

/-- Characters that open a structure, by their marks. -/
def openMarks : List String :=
  ["#s(", "#(", "#[", "(", "["]

def markLength? (marks : List String) (c : Cursor) : Option Nat :=
  (marks.find? c.startsWith).map String.length

/-- The place inside a datum behind what opens it, and the number of elements still to be passed to
reach element `index`. -/
def enter? (c : Cursor) (index : Nat) : Option (Cursor × Nat) :=
  match markLength? sugarMarks c with
  | some n => some (c.drop n, index - 1)
  | none => (markLength? openMarks c).map fun n => (c.drop n, index)

def blanks (c : Cursor) : Except Fault Cursor :=
  (skipBlanks c).mapError .numeral

/-- Passes over `count` elements. -/
def passElements : Nat → Cursor → Except Fault Cursor
  | 0, c => .ok c
  | count + 1, c => do
    let c ← blanks c
    let c ← skipDatum (if atDot c then c.drop 1 else c)
    passElements count c

/-- From the start of a datum to the start of its element `index`. -/
def stepInto (c : Cursor) (index : Nat) : Except Fault Cursor :=
  match enter? c index with
  | none => c.fail .pathMismatch
  | some (inside, count) => do
    let c ← passElements count inside
    let c ← blanks c
    if atDot c then blanks (c.drop 1) else return c

/-- Follows steps, outermost first, as far as the text has the expected shape. -/
def follow : List Nat → Cursor → Except Text.Numeral.Fault Cursor
  | [], c => .ok c
  | index :: rest, c =>
    match stepInto c index with
    | .ok next => follow rest next
    | .error (.numeral f) => .error f
    | .error _ => .ok c

/-- The offset of the part at `path` of the datum at `offset`. -/
def resolve (text : List Char) (offset : Nat) (path : Path) : Except Text.Numeral.Fault Nat := do
  let c ← skipBlanks (Cursor.of text offset)
  return (← follow path.reverse c).pos

/-- Line, counted from one, and column, counted from zero. -/
def lineColumn (text : List Char) (pos : Nat) : Nat × Nat :=
  let before := text.take pos
  let lastLine := (before.reverse.takeWhile (· != '\n')).length
  (before.count '\n' + 1, lastLine + (pos - before.length))

/-- The place of character `index` of a literal, from inside the literal; `origin` is where the
literal starts. A negative number is the index of no character. -/
def charPlace (origin : Nat) (index : Int) (c : Cursor) :
    Except Text.Numeral.Fault Nat :=
  match _h : c.rest with
  | [] => .ok origin
  | '"' :: _ => .ok c.pos
  | '\\' :: _ =>
    match _hc : character true c with
    | .error (.numeral f) => .error f
    | .error _ => .ok c.pos
    | .ok (none, next) => charPlace origin index next
    | .ok (some _, next) =>
      if index = 0 then .ok c.pos else charPlace origin (index - 1) next
  | _ :: _ =>
    if index = 0 then .ok c.pos else charPlace origin (index - 1) (c.drop 1)
termination_by c.rest.length
decreasing_by
  · exact character_shorter _hc
  · exact character_shorter _hc
  · simp [Cursor.drop, _h]

/-- The offset of what produces character `index` of the literal at `pos`; `pos` itself if no
literal starts there, and the closing quote if the literal has no such character. -/
def stringPosition (text : List Char) (pos : Nat) (index : Int) : Except Text.Numeral.Fault Nat :=
  let c := Cursor.of text pos
  if c.startsWith "\"" then charPlace pos index (c.drop 1) else .ok pos

end PatternLint.Reader
