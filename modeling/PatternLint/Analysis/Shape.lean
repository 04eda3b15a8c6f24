import PatternLint.Value.Basic

/-! How a value holds patterns: as a regexp itself, in a list, as the keys of an
association list, and so on. -/

namespace PatternLint.Analysis

inductive Shape where
  | regexp
  | list
  | alist
  | alistValues
  | cons
  | fontLock
  | compilation
  | imenu
  | rules
  deriving Repr, DecidableEq, Inhabited

namespace Shape

def name : Shape → String
  | regexp => "regexp"
  | list => "list"
  | alist => "alist"
  | alistValues => "alist-values"
  | cons => "cons"
  | fontLock => "font-lock"
  | compilation => "compilation"
  | imenu => "imenu"
  | rules => "rules"

def all : List Shape :=
  [regexp, list, alist, alistValues, cons, fontLock, compilation, imenu, rules]

def named? (text : String) : Option Shape :=
  all.find? fun s => s.name == text

/-- The items of a list, without the tail of a dotted one. -/
def elements : Value → List Value
  | .list items => items
  | .dotted items _ => items
  | _ => []

def first? (v : Value) : Option Value :=
  (elements v).head?

def second? (v : Value) : Option Value :=
  (elements v)[1]?

def strings (values : List Value) : List String :=
  values.filterMap Value.strText?

def firstString? (v : Value) : Option String :=
  (first? v).bind Value.strText?

/-- The pattern in an entry `(KEY . PATTERN)`. -/
def dottedString? : Value → Option String
  | .dotted _ tail => tail.strText?
  | _ => none

/-- The matcher of a highlighting keyword, which may stand alone, and those anchored to it. -/
def keywordPatterns (v : Value) : List String :=
  match v with
  | .str text => [text]
  | v =>
    match firstString? v with
    | some text => text :: ((elements v).drop 1).filterMap firstString?
    | none => []

/-- The pattern in an entry `(regexp . PATTERN)` or `(regexp PATTERN)`. -/
def rulePattern? (entry : Value) : Option String :=
  match first? entry with
  | some (.sym "regexp") =>
    match entry with
    | .dotted _ tail => tail.strText?
    | v => (second? v).bind Value.strText?
  | _ => none

/-- The patterns in a value of some shape, in order. Parts of another form hold none. -/
def patterns (shape : Shape) (v : Value) : List String :=
  match shape with
  | regexp => v.strText?.toList
  | list => strings (elements v)
  | alist => (elements v).filterMap firstString?
  | alistValues => (elements v).filterMap dottedString?
  | cons => (firstString? v).toList
  | fontLock => (elements v).flatMap keywordPatterns
  | compilation | imenu => (elements v).filterMap fun e => (second? e).bind Value.strText?
  | rules => (elements v).flatMap fun rule => (elements rule).filterMap rulePattern?

/-- The patterns in something that is added to a list of some shape. -/
def elementPatterns (shape : Shape) (v : Value) : List String :=
  match shape with
  | regexp | cons => []
  | shape => shape.patterns (.list [v])

end Shape

end PatternLint.Analysis
