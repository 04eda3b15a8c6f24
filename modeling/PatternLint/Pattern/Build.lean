import PatternLint.Fault
import PatternLint.Text.Search

/-! Building regexps: quoting literal text, sets of characters, alternatives of strings, and shell
wildcards. -/

namespace PatternLint.Pattern

/-- Characters that are quoted to stand for themselves. -/
def regexpSpecials : List Char :=
  ['[', '*', '.', '\\', '?', '+', '^', '$']

def quoteChar (c : Char) : List Char :=
  if c ∈ regexpSpecials then ['\\', c] else [c]

/-- The regexp that matches exactly the given text. -/
def quote (text : List Char) : List Char :=
  text.flatMap quoteChar

@[simp] theorem quote_nil : quote [] = [] := rfl

@[simp] theorem quote_append (a b : List Char) : quote (a ++ b) = quote a ++ quote b := by
  simp [quote]

/-- A regexp that matches nothing, bracketed as a whole. -/
def unmatchable : List Char :=
  "\\(?:\\`a\\`\\)".toList

/-- The character of a code. -/
def charOf (code : Int) : Except Fault Char :=
  if code < -0x80000000 ∨ 0x80000000 ≤ code then .error .wideCharacter
  else if code < 0 ∨ 0x10ffff < code then .error .notCharacter
  else if code.toNat.isValidChar then .ok (Char.ofNat code.toNat)
  else .ok (Char.ofNat 0xfffd)

def charsOf (codes : List Int) : Except Fault (List Char) :=
  codes.mapM charOf

/-- Runs of consecutive codes in an ascending list, as `(first, last)` in reverse order. -/
def runsOnto (runs : List (Int × Int)) : List Int → List (Int × Int)
  | [] => runs
  | c :: rest =>
    match runs with
    | (lo, hi) :: more =>
      if hi = c - 1 then runsOnto ((lo, c) :: more) rest else runsOnto ((c, c) :: runs) rest
    | [] => runsOnto [(c, c)] rest

def runs (codes : List Int) : List (Int × Int) :=
  (runsOnto [] codes).reverse

/-- The distinct members in ascending order. -/
def ascending (codes : List Int) : List Int :=
  (codes.mergeSort (· ≤ ·)).eraseReps

/-- A run as elements of a set; one or two characters need no range. -/
def runText (run : Int × Int) : Except Fault (List Char) := do
  let (lo, hi) := run
  if hi - lo ≥ 2 then return [← charOf lo, '-', ← charOf hi]
  else if hi = lo then return [← charOf lo]
  else return [← charOf lo, ← charOf hi]

/-- The characters that have a meaning in a set. -/
def setSpecials : List Char :=
  [']', '^', '-']

def isSetSpecial (code : Int) : Bool :=
  setSpecials.any fun c => code == c.toNat

/-- The set of the given characters: a closing bracket comes first, a hyphen last, and a caret
anywhere but first. -/
def charset (codes : List Int) : Except Fault (List Char) := do
  match ascending codes with
  | [] => return unmatchable
  | [code] => return quoteChar (← charOf code)
  | codes =>
    let _ ← charsOf codes
    let plain := (← (runs (codes.filter fun c => !isSetSpecial c)).mapM runText).flatten
    let has (c : Char) (text : List Char) := if (c.toNat : Int) ∈ codes then text else []
    let body := has ']' [']'] ++ plain ++ has '^' ['^'] ++ has '-' ['-']
    return '[' :: (if body.head? = some '^' then body.reverse else body) ++ [']']

/-- Longer texts before shorter ones, and those of one length in order. -/
def beforeInAlternatives (a b : List Char) : Bool :=
  a.length > b.length || (a.length == b.length && !b.lex a fun x y => x.toNat < y.toNat)

/-- How alternatives are grouped. -/
inductive Grouping where
  | shy
  | capturing
  | word
  | symbol
  deriving Repr, DecidableEq

/-- Parts joined by the operator of alternation. -/
def alternation (parts : List (List Char)) : List Char :=
  ['\\', '|'].intercalate parts

/-- A regexp that matches any of the given texts; unless their order is kept, a longer text is tried
before its beginnings. -/
def alternatives (texts : List (List Char)) (grouping : Grouping) (keepOrder : Bool) :
    Except Fault (List Char) := do
  let unique := texts.eraseDups
  if unique.isEmpty then return unmatchable
  let ordered := if keepOrder then unique else unique.mergeSort beforeInAlternatives
  let asSet := ordered.length > 1 && ordered.all (·.length == 1)
  let body ←
    if asSet then charset (ordered.flatten.map fun c => (c.toNat : Int))
    else pure (alternation (ordered.map quote))
  return match grouping with
    | .word => "\\<\\(".toList ++ body ++ "\\)\\>".toList
    | .symbol => "\\_<\\(".toList ++ body ++ "\\)\\_>".toList
    | .capturing => "\\(".toList ++ body ++ "\\)".toList
    | .shy =>
      if asSet || ordered.length ≤ 1 then body else "\\(?:".toList ++ body ++ "\\)".toList

/-- How many characters the elements of a set take, up to its closing bracket or the end. -/
def setLength (cs : List Char) : Nat :=
  match _h : cs with
  | [] => 0
  | ']' :: _ => 0
  | '[' :: ':' :: rest =>
    match Text.find? [':', ']'] rest with
    | some n => n + 4 + setLength (rest.drop (n + 2))
    | none => 1 + setLength (':' :: rest)
  | _ :: rest => 1 + setLength rest
termination_by cs.length
decreasing_by all_goals simp; try omega

/-- The elements that may stand at the start of a set without their usual meaning. -/
def setHead (cs : List Char) : Nat :=
  match cs with
  | '^' :: ']' :: _ => 2
  | '^' :: _ => 1
  | ']' :: _ => 1
  | _ => 0

/-- The number of groups of a regexp that capture text. -/
def groupDepth (cs : List Char) : Nat :=
  match _h : cs with
  | [] => 0
  | '[' :: rest =>
    let n := setHead rest
    groupDepth (rest.drop (n + setLength (rest.drop n) + 1))
  | '\\' :: '(' :: rest =>
    (if ['?', ':'].isPrefixOf rest then 0 else 1) + groupDepth rest
  | '\\' :: _ :: rest => groupDepth rest
  | _ :: rest => groupDepth rest
termination_by cs.length
decreasing_by all_goals simp; try omega

/-- A set of a shell wildcard, which an exclamation mark negates. -/
def wildcardSet (inner : List Char) : List Char :=
  match inner with
  | '!' :: rest => '[' :: '^' :: rest ++ [']']
  | _ => '[' :: inner ++ [']']

def wildcardBody (cs : List Char) : List Char :=
  match _h : cs with
  | [] => []
  | '*' :: rest => '.' :: '*' :: wildcardBody rest
  | '?' :: rest => '.' :: wildcardBody rest
  | '[' :: rest =>
    match Text.find? [']'] (rest.drop 1) with
    | some n => wildcardSet (rest.take (n + 1)) ++ wildcardBody (rest.drop (n + 2))
    | none => '\\' :: '[' :: wildcardBody rest
  | c :: rest => quoteChar c ++ wildcardBody rest
termination_by cs.length
decreasing_by all_goals simp; try omega

/-- A shell wildcard as a regexp that matches whole texts. -/
def wildcard (cs : List Char) : List Char :=
  "\\`".toList ++ wildcardBody cs ++ "\\'".toList

end PatternLint.Pattern
