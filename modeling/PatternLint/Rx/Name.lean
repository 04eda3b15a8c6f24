/-! The vocabulary of structured regexps: symbols that stand for a regexp, names of character
classes and of syntax classes, and operators. -/

namespace PatternLint.Rx

/-- How tightly a regexp holds together: an `atom` takes a repetition operator, a `seq` can stand in
a sequence, and an `alt` must stand alone. -/
inductive Precedence where
  | alt
  | seq
  | atom
  deriving Repr, DecidableEq

def Precedence.rank : Precedence → Nat
  | .alt => 0
  | .seq => 1
  | .atom => 2

/-- What the first element of a form asks for. `many` carries its operator and whether it follows
the current greediness. -/
inductive Operator where
  | seq
  | or
  | set
  | not
  | many (op : Char) (follows : Bool)
  | exactly
  | atLeast
  | between
  | counted
  | group
  | numberedGroup
  | backReference
  | syntaxClass
  | category
  | literal
  | regexp
  | minimal
  | maximal
  deriving Repr, DecidableEq

def symbols : List (String × String × Precedence) :=
  [("nonl", ".", .atom), ("not-newline", ".", .atom), ("any", ".", .atom),
    ("anychar", "[^z-a]", .atom), ("anything", "[^z-a]", .atom),
    ("unmatchable", "\\`a\\`", .seq), ("bol", "^", .seq), ("line-start", "^", .seq),
    ("eol", "$", .seq), ("line-end", "$", .seq), ("bos", "\\`", .atom),
    ("string-start", "\\`", .atom), ("bot", "\\`", .atom), ("buffer-start", "\\`", .atom),
    ("eos", "\\'", .atom), ("string-end", "\\'", .atom), ("eot", "\\'", .atom),
    ("buffer-end", "\\'", .atom), ("point", "\\=", .atom), ("bow", "\\<", .atom),
    ("word-start", "\\<", .atom), ("eow", "\\>", .atom), ("word-end", "\\>", .atom),
    ("word-boundary", "\\b", .atom), ("not-word-boundary", "\\B", .atom),
    ("symbol-start", "\\_<", .atom), ("symbol-end", "\\_>", .atom),
    ("not-wordchar", "\\W", .atom)]

def classNames : List (String × String) :=
  [("digit", "digit"), ("numeric", "digit"), ("num", "digit"), ("control", "cntrl"),
    ("cntrl", "cntrl"), ("hex-digit", "xdigit"), ("hex", "xdigit"), ("xdigit", "xdigit"),
    ("blank", "blank"), ("graphic", "graph"), ("graph", "graph"), ("printing", "print"),
    ("print", "print"), ("alphanumeric", "alnum"), ("alnum", "alnum"), ("letter", "alpha"),
    ("alphabetic", "alpha"), ("alpha", "alpha"), ("ascii", "ascii"), ("nonascii", "nonascii"),
    ("lower", "lower"), ("lower-case", "lower"), ("punctuation", "punct"), ("punct", "punct"),
    ("space", "space"), ("whitespace", "space"), ("white", "space"), ("upper", "upper"),
    ("upper-case", "upper"), ("word", "word"), ("wordchar", "word"), ("unibyte", "unibyte"),
    ("multibyte", "multibyte")]

def syntaxCodes : List (String × String) :=
  [("whitespace", "-"), ("punctuation", "."), ("word", "w"), ("symbol", "_"),
    ("open-parenthesis", "("), ("close-parenthesis", ")"), ("expression-prefix", "'"),
    ("string-quote", "\""), ("paired-delimiter", "$"), ("escape", "\\"),
    ("character-quote", "/"), ("comment-start", "<"), ("comment-end", ">"),
    ("string-delimiter", "|"), ("comment-delimiter", "!")]

def operators : List (String × Operator) :=
  [("seq", .seq), (":", .seq), ("and", .seq), ("sequence", .seq), ("or", .or), ("|", .or),
    ("any", .set), ("in", .set), ("char", .set), ("not", .not), ("*", (.many '*' true)),
    ("zero-or-more", (.many '*' true)), ("0+", (.many '*' true)), ("+", (.many '+' true)),
    ("one-or-more", (.many '+' true)), ("1+", (.many '+' true)), ("?", (.many '?' true)),
    ("opt", (.many '?' true)), ("optional", (.many '?' true)), ("zero-or-one", (.many '?' true)),
    ("*?", (.many '*' false)), ("+?", (.many '+' false)), ("??", (.many '?' false)),
    ("=", .exactly), (">=", .atLeast), ("**", .between), ("repeat", .counted), ("group", .group),
    ("submatch", .group), ("group-n", .numberedGroup), ("submatch-n", .numberedGroup),
    ("backref", .backReference), ("syntax", .syntaxClass), ("category", .category),
    ("literal", .literal), ("regexp", .regexp), ("regex", .regexp), ("minimal-match", .minimal),
    ("maximal-match", .maximal)]

def className? (name : String) : Option String :=
  classNames.lookup name

end PatternLint.Rx
