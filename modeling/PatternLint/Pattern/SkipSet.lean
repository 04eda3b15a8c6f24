import PatternLint.Pattern.Regexp

/-! The linter of skip sets: characters, ranges and classes without brackets around them, where a
backslash quotes the next character and a leading caret negates the set. -/

namespace PatternLint.Pattern.SkipSet

inductive Issue where
  | empty
  | negatedEmpty
  | framed
  | escaped (c : Char)
  | duplicatedClass (name : String)
  | set (issue : SetIssue)
  deriving Repr, DecidableEq

def Issue.message : Issue → String
  | .empty => "Empty set matches nothing"
  | .negatedEmpty => "Negated empty set matches anything"
  | .framed => "Suspect skip set framed in `[...]'"
  | .escaped c => "Unnecessarily escaped `" ++ c.toString ++ "'"
  | .duplicatedClass name => "Duplicated class `[:" ++ name ++ ":]'"
  | .set (.duplicated c) => "Duplicated character `" ++ c.toString ++ "'"
  | .set (.included c range) =>
    "Character `" ++ c.toString ++ "' included in range `" ++ range.text ++ "'"
  | .set (.includes range c) =>
    "Range `" ++ range.text ++ "' includes character `" ++ c.toString ++ "'"
  | .set (.overlap earlier later) =>
    "Ranges `" ++ earlier.text ++ "' and `" ++ later.text ++ "' overlap"
  | .set (.reversed range) => "Reversed range `" ++ range.text ++ "'"

/-- Spans and class names met so far, and issues in reverse. -/
structure State where
  seen : Array Span
  classes : List String
  issues : List (Nat × Issue)

def State.report (st : State) (pos : Nat) (issue : Issue) : State :=
  { st with issues := (pos, issue) :: st.issues }

def State.add (st : State) (pos : Nat) (span : Span) : State :=
  let st := match clash? st.seen span with
    | some issue => st.report pos (.set issue)
    | none => st
  { st with seen := st.seen.push span }

/-- Characters that a backslash has a reason to quote. -/
def quotable : List Char :=
  ['\\', '^', '-']

/-- The character at the start of a text, how many characters it takes after its first one, and the
state with a complaint about needless quoting. -/
def charAt (st : State) (pos : Nat) (c : Char) (rest : List Char) :
    Except ParseFault (Char × Nat × State) :=
  if c == '\\' then
    match rest with
    | [] => .error (.malformed pos .strayBackslash)
    | x :: _ => .ok (x, 1, if x ∈ quotable then st else st.report pos (.escaped x))
  else .ok (c, 0, st)

/-- One element of the set: the new state and how many characters it takes after its first one. -/
def element (st : State) (pos : Nat) (c : Char) (rest : List Char) :
    Except ParseFault (State × Nat) := do
  let (lo, n, st) ← charAt st pos c rest
  match rest.drop n with
  | '-' :: x :: after => do
    let (hi, k, st) ← charAt st (pos + n + 2) x after
    let st :=
      if hi < lo then
        match reversed? ⟨lo, hi⟩ with
        | some issue => st.report pos (.set issue)
        | none => st
      else st.add pos ⟨lo, hi⟩
    return (st, n + 2 + k)
  | _ => return (st.add pos (.single lo), n)

def lintFrom (st : State) (pos : Nat) (cs : List Char) : Except ParseFault State :=
  match _h : cs with
  | [] => .ok st
  | c :: rest =>
    match Regexp.className? cs with
    | some name =>
      let text := String.ofList name
      if text ∉ charClasses then .error (.malformed pos (.noCharClass text))
      else
        let st := if text ∈ st.classes then st.report pos (.duplicatedClass text) else st
        lintFrom { st with classes := text :: st.classes } (pos + name.length + 4)
          (cs.drop (name.length + 4))
    | none =>
      match element st pos c rest with
      | .error f => .error f
      | .ok (st, n) => lintFrom st (pos + 1 + n) (rest.drop n)
termination_by cs.length
decreasing_by all_goals simp [_h]; try omega

/-- Brackets around the whole set, which are characters of it like any other. -/
def isFramed (body : List Char) : Bool :=
  body.head? == some '[' && Text.endsWith [']'] body && !Text.endsWith [':', ']'] body &&
    body.length > 2

/-- The issues of a skip set, ordered by place. -/
def lint (skipSet : List Char) : Except ParseFault (List (Nat × Issue)) :=
  let negated := skipSet.head? == some '^'
  let start := if negated then 1 else 0
  let body := skipSet.drop start
  if body.isEmpty then .ok [(0, if negated then .negatedEmpty else .empty)]
  else
    let issues := if isFramed body then [(start, Issue.framed)] else []
    (lintFrom ⟨#[], [], issues⟩ start body).map fun st =>
      st.issues.reverse.mergeSort fun a b => a.1 ≤ b.1

def checker : Checker := fun skipSet =>
  match lint skipSet.toList with
  | .ok issues => .ok (issues.map fun (pos, issue) => (pos, issue.message))
  | .error f => .error f.failure

end PatternLint.Pattern.SkipSet
