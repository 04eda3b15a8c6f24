import PatternLint.Analysis.Generators

/-! Checks of single strings. A complaint about a string that stands as a literal in the expression
it comes from points into the literal, and otherwise at the expression. -/

namespace PatternLint.Analysis

open Reader (Path)

/-- Where a checked value comes from: an expression, and its place in the form at `offset`. -/
structure Site where
  offset : Nat
  path : Path
  expr : Value

/-- The site of an item of the expression. -/
def Site.child (site : Site) (index : Nat) : Site :=
  let expr := match site.expr with
    | .list items => items.getD index .nil
    | _ => .nil
  ⟨site.offset, index :: site.path, expr⟩

/-- The points of a walk at which it takes up a site and at which it reports, about a
character of a string if there is a string and an index. The plain conduct is the analysis,
others add checks to it. -/
class Conduct where
  site : Site → Analyze Unit
  report : Document → (message : String) → (text : Option String) → (offset : Nat) → Path →
    (index : Option Int) → Analyze Unit

instance Conduct.plain : Conduct where
  site _ := return
  report doc message _ := Analysis.report doc message

mutual
/-- The path to the first literal that is the given string. -/
def literalPath? (text : String) (form : Value) : Option Path :=
  match form with
  | .str s => if s = text then some [] else none
  | .list items => literalPathFrom text 0 items
  | .vec items => literalPathFrom text 0 items
  | .dotted items tail =>
    (literalPathFrom text 0 items).or ((literalPath? text tail).map (· ++ [items.length]))
  | _ => none
def literalPathFrom (text : String) (index : Nat) (items : List Value) : Option Path :=
  match items with
  | [] => none
  | item :: rest =>
    ((literalPath? text item).map (· ++ [index])).or (literalPathFrom text (index + 1) rest)
end

variable [Conduct] (doc : Document)

def Site.take (site : Site) : Analyze Site := do
  Conduct.site site
  return site

/-- Reports a message about a string found at a site, or about one of its characters. -/
def Site.report (site : Site) (text message : String) (index : Option Int) : Analyze Unit :=
  match literalPath? text site.expr with
  | none => Conduct.report doc message (some text) site.offset site.path none
  | some inner => Conduct.report doc message (some text) site.offset (inner ++ site.path) index

def reportComplaints (site : Site) (text name : String) : List Pattern.Complaint → Analyze Unit
  | [] => return
  | (pos, message) :: rest => do
    site.report doc text s!"In {name}: {message} (pos {pos})" (some pos)
    reportComplaints site text name rest

/-- Checks a string; a checker that fails is reported as an error of the string. -/
def Site.check (site : Site) (checker : Pattern.Checker) (name text : String) : Analyze Unit :=
  match checker text with
  | .ok complaints => reportComplaints doc site text name complaints
  | .error f =>
    let shown := String.ofList (Value.quoteText text.toList)
    site.report doc text s!"In {name}: Error: {f.text}: {shown}" f.offset

def Site.checkRegexps (site : Site) (name : String) : List String → Analyze Unit
  | [] => return
  | text :: rest => do
    site.check doc doc.regexps name text
    checkRegexps site name rest

/-- The syntax classes by the characters that designate them. -/
def syntaxClasses : List (Char × String) :=
  [('-', "whitespace"), (' ', "whitespace"), ('.', "punctuation"), ('w', "word"), ('W', "word"),
    ('_', "symbol"), ('(', "open parenthesis"), (')', "close parenthesis"),
    ('\x27', "expression prefix"), ('"', "string quote"), ('$', "paired delimiter"),
    ('\\', "escape"), ('/', "character quote"), ('<', "comment start"), ('>', "comment end"),
    ('|', "string delimiter"), ('!', "comment delimiter")]

inductive SyntaxIssue where
  | empty
  | invalid (c : Char)
  | duplicated (c : Char)
  deriving Repr, DecidableEq

def SyntaxIssue.message : SyntaxIssue → String
  | .empty => "Empty syntax string"
  | .invalid c => "Invalid char \x60" ++ c.toString ++ "' in syntax string"
  | .duplicated c => "Duplicated syntax code \x60" ++ c.toString ++ "'"

/-- Each character must designate a class that was not mentioned before. -/
def syntaxIssuesFrom (seen : List String) (pos : Nat) : List Char → List (Nat × SyntaxIssue)
  | [] => []
  | c :: rest =>
    match syntaxClasses.lookup c with
    | none => (pos, .invalid c) :: syntaxIssuesFrom seen (pos + 1) rest
    | some name =>
      if name ∈ seen then (pos, .duplicated c) :: syntaxIssuesFrom seen (pos + 1) rest
      else syntaxIssuesFrom (name :: seen) (pos + 1) rest

/-- The issues of a string of syntax classes, which a leading caret negates. -/
def syntaxIssues (cs : List Char) : List (Nat × SyntaxIssue) :=
  let start := if cs.head? == some '^' then 1 else 0
  if cs.length = start then [(start, .empty)] else syntaxIssuesFrom [] start (cs.drop start)

def Site.checkSyntax (site : Site) (name text : String) : Analyze Unit :=
  reportComplaints doc site text name
    ((syntaxIssues text.toList).map fun (pos, issue) => (pos, issue.message))

end PatternLint.Analysis
