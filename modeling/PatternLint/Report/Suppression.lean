import PatternLint.Text.Search

/-! Comments that suppress messages about the next line of code. -/

namespace PatternLint.Report

def isIndent (c : Char) : Bool :=
  c == ' ' || c == '\t'

/-- The lines of a text; the text behind the last line end is a line too. -/
def lines (text : List Char) : List (List Char) :=
  Text.split ['\n'] text

/-- The text behind the semicolons that begin a comment line. -/
def commentText? (line : List Char) : Option (List Char) :=
  match line.dropWhile isIndent with
  | ';' :: rest => some (rest.dropWhile (· == ';'))
  | _ => none

def suppressionMark : List Char :=
  "relint suppression:".toList

/-- What a comment suppresses: messages that hold this text. -/
def suppressed? (line : List Char) : Option (List Char) := do
  let comment := (← commentText? line).dropWhile isIndent
  if suppressionMark.isPrefixOf comment then
    match Text.trim isIndent (comment.drop suppressionMark.length) with
    | [] => none
    | text => some text
  else none

/-- A blank line or a comment. -/
def isComment (line : List Char) : Bool :=
  (line.all isIndent) || (commentText? line).isSome

/-- Looks upwards from a line, whose predecessors are given from the nearest on: up to the first
line of code, a comment may suppress the message. -/
def isSuppressedBelow (message : List Char) : List (List Char) → Bool
  | [] => false
  | line :: above =>
    if (suppressed? line).any (Text.contains · message) then true
    else isComment line && isSuppressedBelow message above

/-- Whether a message about a line, counted from one, is suppressed. -/
def isSuppressed (lines : List (List Char)) (line : Nat) (message : String) : Bool :=
  isSuppressedBelow message.toList (lines.take (line - 1)).reverse

/-- The number of errors and, if there are any, of suppressed ones. -/
def summary (errors suppressed : Nat) : String :=
  let text := toString errors ++ (if errors = 1 then " error" else " errors")
  if suppressed = 0 then text else text ++ s!" ({suppressed} suppressed)"

end PatternLint.Report
