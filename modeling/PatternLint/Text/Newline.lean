/-! Line ends: a carriage return, alone or before a line feed, ends a line as a line feed does. -/

namespace PatternLint.Text

def plainNewlinesOnto (out : List Char) : List Char → List Char
  | [] => out.reverse
  | '\r' :: '\n' :: rest => plainNewlinesOnto ('\n' :: out) rest
  | '\r' :: rest => plainNewlinesOnto ('\n' :: out) rest
  | c :: rest => plainNewlinesOnto (c :: out) rest

/-- The text with line feeds for all line ends. -/
def plainNewlines (cs : List Char) : List Char :=
  plainNewlinesOnto [] cs

end PatternLint.Text
