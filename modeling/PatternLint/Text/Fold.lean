import PatternLint.Text.Word

/-! Matching texts regardless of case. The patterns are in lower case and hold ASCII characters
only; some letters outside ASCII are case variants of ASCII letters. -/

namespace PatternLint.Text

/-- The ASCII letter in lower case that a character is a variant of, or the character itself. -/
def foldCase (c : Char) : Char :=
  if c == 'ſ' then 's'
  else if c == 'ı' || c == 'İ' then 'i'
  else if c.toNat == 0x212a then 'k'
  else c.toLower

/-- What follows a phrase at the start of a text. -/
def afterPhrase? (phrase : List Char) : List Char → Option (List Char)
  | cs =>
    if phrase.isPrefixOf ((cs.take phrase.length).map foldCase) then some (cs.drop phrase.length)
    else none

/-- What can follow if one of several phrases is taken. -/
def afterAny (phrases : List String) (cs : List Char) : List (List Char) :=
  phrases.filterMap fun p => afterPhrase? p.toList cs

/-- No word character comes next. -/
def atWordEnd (cs : List Char) : Bool :=
  !(cs.head?.any isWord)

end PatternLint.Text
