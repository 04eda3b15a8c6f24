import PatternLint.Pattern.CharSet
import PatternLint.Pattern.Problem
import PatternLint.Text.Search

/-! The regexp linter. It goes over the tokens of a regexp once and remembers which groups are open
and what a repetition operator would apply to. -/

namespace PatternLint.Pattern.Regexp

inductive Issue where
  | unescaped (c : Char)
  | repeatedRepetition
  | repeatedNothing
  | escaped (c : Char)
  | set (issue : SetIssue)
  deriving Repr, DecidableEq

def Issue.message : Issue → String
  | .unescaped c => "Unescaped literal `" ++ c.toString ++ "'"
  | .repeatedRepetition => "Repetition of repetition"
  | .repeatedNothing => "Repetition of nothing"
  | .escaped c => "Escaped non-special character `" ++ c.toString ++ "'"
  | .set (.duplicated c) => "Duplicated `" ++ c.toString ++ "' inside character alternative"
  | .set (.included c range) =>
    "Character `" ++ c.toString ++ "' included in range `" ++ range.text ++ "'"
  | .set (.includes range c) =>
    "Range `" ++ range.text ++ "' includes character `" ++ c.toString ++ "'"
  | .set (.overlap earlier later) =>
    "Ranges `" ++ earlier.text ++ "' and `" ++ later.text ++ "' overlap"
  | .set (.reversed range) => "Reversed range `" ++ range.text ++ "' matches nothing"

/-- What a repetition operator would apply to. -/
inductive Operand where
  | nothing
  | item
  | repetition
  deriving Repr, DecidableEq

/-- Issues in reverse, the places of the open groups, innermost first, and the operand so far. -/
structure State where
  issues : List (Nat × Issue)
  groups : List Nat
  operand : Operand
  deriving Repr, DecidableEq

def State.initial : State :=
  ⟨[], [], .nothing⟩

def State.report (st : State) (pos : Nat) (issue : Issue) : State :=
  { st with issues := (pos, issue) :: st.issues }

def State.setOperand (st : State) (operand : Operand) : State :=
  { st with operand := operand }

def fail (pos : Nat) (problem : Problem) : Except ParseFault α :=
  .error (.malformed pos problem)

/-- What a step gives: the new state, and how many characters it took after the first one. -/
abbrev Step := Except ParseFault (State × Nat)

/-- The text before a place, in reverse, ends in what opens a group or an alternative. -/
def opensBefore (before : List Char) : Bool :=
  match before with
  | '(' :: '\\' :: _ => true
  | '|' :: '\\' :: _ => true
  | ':' :: rest =>
    match Text.find? ['?', '(', '\\'] rest with
    | some n => (rest.take n).all Text.isDigit
    | none => false
  | _ => false

/-- The text behind a place ends a group, an alternative or the regexp. -/
def closesAfter (rest : List Char) : Bool :=
  match rest with
  | [] => true
  | '\\' :: ')' :: _ => true
  | '\\' :: '|' :: _ => true
  | _ => false

/-- The name of a class written `[:name:]` at the start of a text. -/
def className? (cs : List Char) : Option (List Char) :=
  match cs with
  | '[' :: ':' :: rest => (Text.find? [':', ']'] rest).map rest.take
  | _ => none

/-- A range at the start of a text, unless its end closes the set. -/
def range? (cs : List Char) : Option Span :=
  match cs with
  | lo :: '-' :: hi :: _ => if hi == ']' then none else some ⟨lo, hi⟩
  | _ => none

/-- The elements of a set from the one at `pos` on, with the elements before it and the issues so
far in reverse; gives the issues and the place behind the closing bracket. -/
def setFrom (origin pos : Nat) (first : Bool) (seen : Array Span) (issues : List (Nat × Issue))
    (cs : List Char) : Except ParseFault (List (Nat × Issue) × Nat) :=
  match _h : cs with
  | [] => fail origin .openSet
  | c :: rest =>
    if c == ']' && !first then .ok (issues, pos + 1)
    else match className? cs with
      | some name =>
        if String.ofList name ∈ charClasses then
          setFrom origin (pos + name.length + 4) false seen issues (cs.drop (name.length + 4))
        else fail pos (.badCharClass (String.ofList name))
      | none =>
        match range? cs with
        | some range =>
          if range.hi < range.lo then
            let more := (reversed? range).toList.map fun i => (pos, Issue.set i)
            setFrom origin (pos + 3) false seen (more ++ issues) (cs.drop 3)
          else
            let more := (clash? seen range).toList.map fun i => (pos, Issue.set i)
            setFrom origin (pos + 3) false (seen.push range) (more ++ issues) (cs.drop 3)
        | none =>
          let more := (clash? seen (.single c)).toList.map fun i => (pos, Issue.set i)
          setFrom origin (pos + 1) false (seen.push (.single c)) (more ++ issues) rest
termination_by cs.length
decreasing_by all_goals simp [_h]; try omega

/-- A set, whose opening bracket stands at `pos`; `rest` follows the bracket. -/
def setStep (st : State) (pos : Nat) (rest : List Char) : Step := do
  let negated := rest.head? == some '^'
  let skipped := if negated then 1 else 0
  let (issues, stop) ← setFrom pos (pos + 1 + skipped) true #[] st.issues (rest.drop skipped)
  return ({ st with issues := issues, operand := .item }, stop - pos - 1)

/-- A repetition operator; a question mark behind it makes it reluctant. -/
def postfixStep (st : State) (pos : Nat) (c : Char) (rest : List Char) : State × Nat :=
  match st.operand with
  | .nothing => ((st.report pos (.unescaped c)).setOperand .item, 0)
  | operand =>
    let st := if operand = .repetition then st.report pos .repeatedRepetition else st
    (st.setOperand .repetition, if rest.head? == some '?' then 1 else 0)

/-- A bound of an interval: digits or nothing. -/
def isBound (cs : List Char) : Bool :=
  cs.all Text.isDigit

def bound (cs : List Char) : Except ParseFault Int :=
  (Text.Numeral.read 10 cs).mapError .numeral

/-- The two bounds of an interval, parted by the first comma. -/
def splitBounds (body : List Char) : List Char × List Char :=
  (body.takeWhile (· != ','), (body.dropWhile (· != ',')).drop 1)

/-- An interval of repetition; `rest` follows its opening brace. -/
def intervalStep (st : State) (pos : Nat) (rest : List Char) : Step :=
  match Text.find? ['\\', '\x7d'] rest with
  | none => fail pos .badInterval
  | some n => do
    let (low, high) := splitBounds (rest.take n)
    if !(isBound low && isBound high) then fail pos .badInterval
    if !low.isEmpty && !high.isEmpty then
      if (← bound low) > (← bound high) then fail pos .badInterval
    let st := match st.operand with
      | .nothing => st.report pos .repeatedNothing
      | .item => st
      | .repetition => st.report pos .repeatedRepetition
    return (st.setOperand .repetition, n + 3)

/-- Characters that name a syntax class after `\s`. -/
def syntaxChars : List Char :=
  "-.w_()'\"$\\/<>|! ".toList

/-- Characters that a backslash may precede without complaint, besides those with steps of their
own. -/
def escapable : List Char :=
  "\x7dwW.*+?[^$\\".toList

/-- The opening of a group; `rest` follows the parenthesis. -/
def groupStep (st : State) (pos : Nat) (rest : List Char) : Step :=
  let opened : State := { st with groups := pos :: st.groups, operand := .nothing }
  match rest with
  | '?' :: after =>
    let digits := after.takeWhile Text.isDigit
    match after.drop digits.length with
    | ':' :: _ => .ok (opened, digits.length + 3)
    | _ => fail pos .badGroup
  | _ => .ok (opened, 1)

/-- A backslash at `pos`, the character after it, and what follows. -/
def escapeStep (st : State) (pos : Nat) (c : Char) (rest : List Char) : Step :=
  if c == '(' then groupStep st pos rest
  else if c == ')' then
    match st.groups with
    | [] => fail pos .unmatchedClose
    | _ :: outer => .ok ({ st with groups := outer, operand := .item }, 1)
  else if c == '|' then .ok (st.setOperand .nothing, 1)
  else if c == '\x7b' then intervalStep st pos rest
  else if c == 's' || c == 'S' then
    if rest.head?.any (· ∈ syntaxChars) then .ok (st.setOperand .item, 2)
    else fail pos .badSyntaxClass
  else if c == 'c' || c == 'C' then
    if rest.isEmpty then fail pos .badCategory else .ok (st.setOperand .item, 2)
  else if c == '_' then
    if rest.head?.any fun x => x == '<' || x == '>' then .ok (st.setOperand .nothing, 2)
    else fail pos .badBoundary
  else if c ∈ "`'=bB<>".toList then .ok (st.setOperand .nothing, 1)
  else if Text.isDigit c then
    if c == '0' then fail pos .badBackReference else .ok (st.setOperand .item, 1)
  else if c ∈ escapable then .ok (st.setOperand .item, 1)
  else .ok ((st.report pos (.escaped c)).setOperand .item, 1)

/-- An anchor that is one only in some places; elsewhere it is a literal that should be escaped. -/
def anchorStep (st : State) (pos : Nat) (c : Char) (isAnchor : Bool) : State :=
  if isAnchor then st.setOperand .nothing else (st.report pos (.unescaped c)).setOperand .item

/-- One token: `before` is the text before it in reverse, `rest` what follows its first character
`c`. -/
def step (st : State) (before : List Char) (pos : Nat) (c : Char) (rest : List Char) : Step :=
  if c == '\\' then
    match rest with
    | [] => fail pos .trailingBackslash
    | x :: after => escapeStep st pos x after
  else if c == '[' then setStep st pos rest
  else if c == '*' || c == '+' || c == '?' then .ok (postfixStep st pos c rest)
  else if c == '^' then .ok (anchorStep st pos c (pos == 0 || opensBefore before), 0)
  else if c == '$' then .ok (anchorStep st pos c (closesAfter rest), 0)
  else .ok (st.setOperand .item, 0)

def lintFrom (st : State) (before : List Char) (pos : Nat) (cs : List Char) :
    Except ParseFault State :=
  match _h : cs with
  | [] =>
    match st.groups with
    | [] => .ok st
    | innermost :: _ => fail innermost .openGroup
  | c :: rest =>
    match step st before pos c rest with
    | .error f => .error f
    | .ok (st, n) =>
      lintFrom st ((rest.take n).reverse ++ c :: before) (pos + 1 + n) (rest.drop n)
termination_by cs.length
decreasing_by simp only [List.length_drop, List.length_cons]; omega

/-- The issues of a regexp, ordered by place. -/
def lint (regexp : List Char) : Except ParseFault (List (Nat × Issue)) :=
  (lintFrom .initial [] 0 regexp).map fun st => st.issues.reverse.mergeSort fun a b => a.1 ≤ b.1

def checker : Checker := fun regexp =>
  match lint regexp.toList with
  | .ok issues => .ok (issues.map fun (pos, issue) => (pos, issue.message))
  | .error f => .error f.failure

end PatternLint.Pattern.Regexp
