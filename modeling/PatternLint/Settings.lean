import PatternLint.Text.Numeral
import PatternLint.Text.Search

/-! Settings that the environment can change: how many rounds a loop is simulated for, and which
files of a folder are scanned. -/

namespace PatternLint

structure Settings where
  loopLimit : Nat
  suffixes : List String
  deriving Repr, DecidableEq

namespace Settings

def defaultLoopLimit : Nat := 100

/-- At least one round; what is no number counts as not given. -/
def loopLimitOf (text : Option String) : Nat :=
  match text with
  | none | some "" => defaultLoopLimit
  | some text =>
    match Text.Numeral.read 10 text.toList with
    | .ok n => (max 1 n).toNat
    | .error _ => defaultLoopLimit

/-- Suffixes between colons, without white space around them. -/
def suffixesOf (text : Option String) : List String :=
  match text with
  | none | some "" => [".el"]
  | some text =>
    let parts := (Text.split [':'] text.toList).map (Text.trim Text.isSpace)
    (parts.filter fun p => !p.isEmpty).map String.ofList

/-- The settings, from the texts that the environment has for them. -/
def ofEnvironment (loopLimit suffixes : Option String) : Settings :=
  ⟨loopLimitOf loopLimit, suffixesOf suffixes⟩

end Settings

end PatternLint
