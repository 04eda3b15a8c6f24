import PatternLint.Pattern.Build
import PatternLint.Rx.Name

/-! Sets of characters in structured regexps: their arguments as intervals and classes, and the
bracket expression that denotes them. -/

namespace PatternLint.Rx

/-- A regexp and how tightly it holds together. -/
structure Item where
  text : List Char
  precedence : Precedence
  deriving Repr, DecidableEq

/-- A set as disjoint intervals in ascending order and class names. -/
structure CharSet where
  intervals : List (Int × Int)
  classes : List String
  deriving Repr, DecidableEq

/-- A regexp that matches nothing. -/
def unmatchable : List Char :=
  "\\`a\\`".toList

/-- Matches any character, line ends included. -/
def anyChar : List Char :=
  "[^z-a]".toList

def charCode (v : Value) : Except Fault Int :=
  match v with
  | .int n => .ok n
  | .str text =>
    match text.toList with
    | [c] => .ok c.toNat
    | _ => .error (Fault.aboutRx v (.badCharacter v))
  | _ => .error (Fault.aboutRx v (.badCharacter v))

/-- The characters and ranges of a string. -/
def stringIntervals (cs : List Char) : Except Fault (List (Int × Int)) :=
  match cs with
  | [] => .ok []
  | lo :: '-' :: hi :: rest =>
    if hi < lo then .error (.rx (.reversedRange (String.ofList [lo, '-', hi])))
    else (stringIntervals rest).map ((lo.toNat, hi.toNat) :: ·)
  | c :: rest => (stringIntervals rest).map ((c.toNat, c.toNat) :: ·)

/-- What one argument adds to a set. -/
def argument (v : Value) : Except Fault (List (Int × Int) × Option String) :=
  match v with
  | .str text => (stringIntervals text.toList).map (·, none)
  | .int n => .ok ([(n, n)], none)
  | .dotted [first] last => do
    let lo ← charCode first
    let hi ← charCode last
    if lo > hi then .error (.rx .reversedPair) else return ([(lo, hi)], none)
  | .sym name =>
    match className? name with
    | some c => .ok ([], some c)
    | none => .error (Fault.aboutRx v (.badSetArgument v))
  | _ => .error (Fault.aboutRx v (.badSetArgument v))

/-- Joins intervals that meet or touch, in a list that ascends. -/
def mergeOnto (merged : List (Int × Int)) : List (Int × Int) → List (Int × Int)
  | [] => merged.reverse
  | (lo, hi) :: rest =>
    match merged with
    | (lo', hi') :: more =>
      if lo ≤ hi' + 1 then mergeOnto ((lo', max hi hi') :: more) rest
      else mergeOnto ((lo, hi) :: merged) rest
    | [] => mergeOnto [(lo, hi)] rest

def intervalLe (a b : Int × Int) : Bool :=
  a.1 < b.1 || (a.1 == b.1 && a.2 ≤ b.2)

def merge (intervals : List (Int × Int)) : List (Int × Int) :=
  mergeOnto [] (intervals.mergeSort intervalLe)

def CharSet.ofArguments (args : List Value) : Except Fault CharSet := do
  let parts ← args.mapM argument
  return ⟨merge (parts.flatMap (·.1)), (parts.filterMap (·.2)).eraseDups⟩

def bracketCode : Int := 93
def caretCode : Int := 94
def hyphenCode : Int := 45

/-- An interval without the closing bracket, which is written on its own. -/
def withoutBracket (interval : Int × Int) : List (Int × Int) :=
  let (lo, hi) := interval
  if lo ≤ bracketCode ∧ bracketCode ≤ hi then
    [(lo, bracketCode - 1), (bracketCode + 1, hi)].filter fun p => p.1 ≤ p.2
  else [interval]

/-- An interval without a hyphen or caret at its start, which are written on their own. -/
def trimStart (interval : Int × Int) : Int × Int :=
  let (lo, hi) := interval
  let lo := if lo = hyphenCode then lo + 1 else lo
  (if lo = caretCode then lo + 1 else lo, hi)

/-- An interval as elements of a set; one or two characters need no range. -/
def intervalText (interval : Int × Int) : Except Fault (List Char) := do
  let (lo, hi) := interval
  if hi < lo then return []
  else if lo = hi then return [← Pattern.charOf lo]
  else if hi = lo + 1 then return [← Pattern.charOf lo, ← Pattern.charOf hi]
  else return [← Pattern.charOf lo, '-', ← Pattern.charOf hi]

def classText (name : String) : List Char :=
  '[' :: ':' :: name.toList ++ [':', ']']

/-- The bracket expression: a closing bracket first, a hyphen last, a caret anywhere but first. -/
def CharSet.bracketText (set : CharSet) (negated : Bool) : Except Fault (List Char) := do
  let pieces := set.intervals.flatMap withoutBracket
  let middle ← pieces.mapM fun p => intervalText (trimStart p)
  let close := if set.intervals.any fun p => p.1 ≤ bracketCode && bracketCode ≤
    p.2 then [']'] else []
  let hyphen := if pieces.any fun p => p.1 == hyphenCode then ['-'] else []
  let caret := if pieces.any fun p => p.1 == caretCode then ['^'] else []
  let body := close ++ middle.flatten ++ set.classes.flatMap classText
  if body.isEmpty && !negated then
    return if hyphen.isEmpty then ['\\', '^'] else ['[', '-', '^', ']']
  else return '[' :: (if negated then ['^'] else []) ++ body ++ caret ++ hyphen ++ [']']

/-- The regexp of a set or of its complement. -/
def CharSet.render (set : CharSet) (negated : Bool) : Except Fault Item := do
  match set.intervals, set.classes with
  | [], [] => return if negated then ⟨anyChar, .atom⟩ else ⟨unmatchable, .seq⟩
  | [(lo, hi)], [] =>
    if !negated && lo == hi then return ⟨Pattern.quoteChar (← Pattern.charOf lo), .atom⟩
    else return ⟨← set.bracketText negated, .atom⟩
  | _, _ => return ⟨← set.bracketText negated, .atom⟩

end PatternLint.Rx
