import PatternLint.Analysis.Shape
import PatternLint.Evaluation.LambdaList
import PatternLint.Text.Blank
import PatternLint.Text.Case
import PatternLint.Text.Fold
import PatternLint.Text.Numeral
import PatternLint.Text.Search

/-! What names, documentation and customization types tell about patterns: how a variable holds
them, and which functions take or return regexps. These are guesses. -/

namespace PatternLint.Analysis

/-- The name ends with one of the given texts. -/
def endsWithAny (suffixes : List String) (name : List Char) : Bool :=
  suffixes.any fun s => Text.endsWith s.toList name

/-- The last parts of a hyphenated name are `part`. -/
def endsWithPart (part : String) (name : List Char) : Bool :=
  name == part.toList || Text.endsWith ('-' :: part.toList) name

/-- A name without a level from 1 to 3. -/
def withoutLevel (name : List Char) : List Char :=
  if endsWithAny ["-1", "-2", "-3"] name then name.take (name.length - 2) else name

/-- Variables that hold a regexp and follow no convention. -/
def knownRegexps : List String :=
  ["page-delimiter", "paragraph-start", "paragraph-separate", "sentence-end",
    "comment-start-skip", "comment-end-skip"]

def regexpSuffixes : List String :=
  ["-regexp", "-regex", "-re", "-pattern"]

/-- What the name of a variable suggests. -/
def shapeOfName (name : String) : Option Shape :=
  let cs := name.toList
  if name = "compilation-error-regexp-alist-alist" then some .compilation
  else if endsWithPart "font-lock-keywords" cs ||
      endsWithPart "font-lock-keywords" (withoutLevel cs) then some .fontLock
  else if endsWithPart "imenu-generic-expression" cs then some .imenu
  else if endsWithAny ["-rules-list"] cs then some .rules
  else if name = "auto-mode-alist" || endsWithAny ["-regexp-alist", "-regex-alist", "-re-alist",
      "-pattern-alist", "-mode-alist"] cs then some .alist
  else if endsWithAny ["-regexps", "-regexes", "-patterns", "-regexp-list", "-regex-list",
      "-re-list", "-pattern-list"] cs then some .list
  else if name ∈ knownRegexps || endsWithAny regexpSuffixes cs then some .regexp
  else none

/-! Documentation. -/

def regexpWords : List String :=
  ["regexp", "regular expression"]

/-- Some article, or none, and then some words. -/
def afterArticle (articles words : List String) (cs : List Char) : List (List Char) :=
  (Text.afterAny ("" :: articles) cs).flatMap (Text.afterAny words)

/-- `is not a regexp` stands somewhere, at the start of a word; `before` is the character before. -/
def deniesRegexp (before : Option Char) : List Char → Bool
  | [] => false
  | c :: rest =>
    (!(before.any Text.isWord) &&
      ((Text.afterAny ["is not a ", "is not an "] (c :: rest)).flatMap
        (Text.afterAny regexpWords)).length > 0) ||
    deniesRegexp (some c) rest

def startsNegated (cs : List Char) : Bool :=
  ((Text.afterAny ["not a ", "not an "] cs).flatMap (Text.afterAny regexpWords)).length > 0

/-- What the first words of the documentation suggest. -/
def shapeOfDoc (doc : String) : Option Shape :=
  let cs := doc.toList.dropWhile Text.isSpace
  if startsNegated cs || deniesRegexp none cs then none
  else if ((afterArticle ["a ", "an "] ["list of "] cs).flatMap
      (Text.afterAny ["regexps", "regular expressions"])).any Text.atWordEnd then some .list
  else if (afterArticle ["a ", "an ", "the "] regexpWords cs).any Text.atWordEnd then some .regexp
  else none

/-! Customization types. -/

def isRegexpType : Value → Bool
  | .sym name => name = "regexp"
  | .list (.sym name :: _) => name = "regexp"
  | _ => false

/-- The arguments of a widget without its keyword options. -/
def widgetArgs : List Value → List Value
  | [] => []
  | [v] => if (v.symName?.any Value.isKeywordName) then [] else [v]
  | v :: w :: rest =>
    if (v.symName?.any Value.isKeywordName) then widgetArgs rest else v :: widgetArgs (w :: rest)

/-- The value of an option of a widget. -/
def widgetOption? (key : String) : List Value → Option Value
  | .sym name :: v :: rest => if name = key then some v else widgetOption? key (v :: rest)
  | _ :: rest => widgetOption? key rest
  | [] => none

mutual
/-- What a customization type suggests. -/
def shapeOfType (type : Value) : Option Shape :=
  match type with
  | .sym name => if name = "regexp" then some .regexp else none
  | .list (.sym head :: items) =>
    if head = "regexp" then some .regexp
    else if head = "repeat" then
      if (widgetArgs items).getLast?.any isRegexpType then some .list else none
    else if head = "choice" ∨ head = "radio" then
      let shapes := alternativeShapes items
      if .regexp ∈ shapes then some .regexp else if .list ∈ shapes then some .list else none
    else if head = "alist" then
      if (widgetOption? ":key-type" items).any isRegexpType then some .alist
      else if (widgetOption? ":value-type" items).any isRegexpType then some .alistValues
      else none
    else if head = "cons" then
      if (widgetArgs items).head?.any isRegexpType then some .cons else none
    else none
  | _ => none
/-- What the alternatives among the items of a widget suggest. -/
def alternativeShapes (items : List Value) : List Shape :=
  match items with
  | [] => []
  | [v] => if (v.symName?.any Value.isKeywordName) then [] else (shapeOfType v).toList
  | v :: w :: rest =>
    if (v.symName?.any Value.isKeywordName) then alternativeShapes rest
    else (shapeOfType v).toList ++ alternativeShapes (w :: rest)
end

/-- The shape of a variable: its type decides before its name, and its name before its
documentation. -/
def shapeOfVariable (name : String) (type : Option Value) (doc : Option String) : Option Shape :=
  (type.bind shapeOfType).or ((shapeOfName name).or (doc.bind shapeOfDoc))

/-! Functions. -/

/-- A function seems to return a regexp. -/
def returnsRegexp (name : String) (doc : Option String) : Bool :=
  endsWithAny regexpSuffixes name.toList ||
    doc.any fun doc =>
      let cs := doc.toList.dropWhile Text.isSpace
      ((Text.afterAny ["return "] cs).flatMap (afterArticle ["a ", "the "] regexpWords)).any
        Text.atWordEnd

def isUpperLetter (c : Char) : Bool :=
  'A' ≤ c && c ≤ 'Z'

/-- Characters of the name of an argument in documentation. -/
def isPlaceholderChar (c : Char) : Bool :=
  isUpperLetter c || Text.Numeral.isDecimal c || c == '-'

/-- The longest beginning of a run of such characters that is a name and ends where a word ends,
with what follows it; `run` is what has been read, in reverse. -/
def shortenPlaceholder (run rest : List Char) : Option (List Char × List Char) :=
  match run with
  | [] => none
  | c :: before =>
    if c != '-' && Text.atWordEnd rest then some (run.reverse, rest)
    else shortenPlaceholder before (c :: rest)

def startsPlaceholder (cs : List Char) : Bool :=
  cs.head?.any isUpperLetter

/-- `regexp NAME`: the name, and what follows it. -/
def nameAfterRegexp? (cs : List Char) : Option (List Char × List Char) := do
  let rest ← (Text.afterAny regexpWords cs).head?
  let cs := rest.dropWhile Text.isSpace
  if cs.length = rest.length || !startsPlaceholder cs then none
  else
    let run := cs.takeWhile isPlaceholderChar
    shortenPlaceholder run.reverse (cs.drop run.length)

/-- What follows white space, if there is some. -/
def afterSpace? (cs : List Char) : Option (List Char) :=
  if cs.head?.any Text.isSpace then some (cs.dropWhile Text.isSpace) else none

def afterText? (text : String) (cs : List Char) : Option (List Char) :=
  if text.toList.isPrefixOf cs then some (cs.drop text.length) else none

/-- `NAME is a regexp` or `NAME, a regexp`: the name, and what follows. -/
def nameBeforeRegexp? (cs : List Char) : Option (List Char × List Char) := do
  if !startsPlaceholder cs then none
  else
    let name := cs.takeWhile isPlaceholderChar
    let rest := cs.drop name.length
    if name.getLast? == some '-' then none
    else
      let rest ← (afterText? "," rest).or ((afterSpace? rest).bind (afterText? "is"))
      let rest ← afterSpace? rest
      let rest ← (afterText? "an" rest).or (afterText? "a" rest)
      let rest ← afterSpace? rest
      return (name, ← (Text.afterAny regexpWords rest).head?)

/-- All names that `find?` finds at places from left to right, where no two of them overlap;
`before` is the character before, and every step takes at least one character. -/
def scanNames (find? : Option Char → List Char → Option (List Char × List Char)) :
    Nat → Option Char → List Char → List (List Char)
  | 0, _, _ => []
  | _ + 1, _, [] => []
  | fuel + 1, before, c :: rest =>
    match find? before (c :: rest) with
    | some (name, after) =>
      let taken := (c :: rest).take (rest.length + 1 - after.length)
      name :: scanNames find? fuel taken.getLast? after
    | none => scanNames find? fuel (some c) rest

/-- The names of arguments that the documentation calls regexps. -/
def placeholders (doc : List Char) : List (List Char) :=
  let behind := fun (_ : Option Char) cs => nameAfterRegexp? cs
  let ahead := fun (before : Option Char) cs =>
    if before.any Text.isWord then none else nameBeforeRegexp? cs
  scanNames behind (doc.length + 1) none doc ++ scanNames ahead (doc.length + 1) none doc

/-- The name of an argument suggests that it takes a regexp. -/
def isRegexpArgument (name : List Char) : Bool :=
  endsWithAny ["regex", "regexp", "pattern"] name || endsWithPart "re" name

/-- The positions among parameters, counted from `index`, that seem to take regexps. -/
def regexpPositions (placeholders : List (List Char)) (index : Nat) :
    List LambdaList.Spec → List Nat
  | [] => []
  | .keyword .rest :: _ => []
  | .keyword _ :: rest => regexpPositions placeholders index rest
  | .pattern :: rest => regexpPositions placeholders (index + 1) rest
  | .plain name :: rest | .listed name :: rest =>
    let cs := name.toList
    let others := regexpPositions placeholders (index + 1) rest
    if isRegexpArgument cs || Text.Case.upper cs ∈ placeholders then index :: others else others

/-- The positions of the arguments of a function that seem to take regexps. Those of arguments that
are collected in a list are not counted. -/
def regexpParameters (formals : Value) (doc : Option String) : List Nat :=
  let names := match doc with
    | some doc => placeholders doc.toList
    | none => []
  regexpPositions names 0 (LambdaList.specs formals)

end PatternLint.Analysis
