import PatternLint.Primitive.Format
import PatternLint.Primitive.Sequence
import PatternLint.Primitive.Sort
import PatternLint.Table

/-! The primitives by name. -/

namespace PatternLint.Primitive

def arithmetic : List (String × Primitive) :=
  [("+", sum), ("-", difference), ("*", product), ("/", quotient), ("%", remainder),
    ("mod", modulo), ("1+", successor), ("1-", predecessor), ("max", maximum), ("min", minimum),
    ("abs", magnitude), ("=", chain [.eq]), ("<", chain [.lt]), (">", chain [.gt]),
    ("<=", chain [.lt, .eq]), (">=", chain [.gt, .eq]), ("/=", differs), ("zerop", isZero),
    ("number-sequence", numberSequence)]

def isInteger : Value → Bool
  | .int _ => true
  | _ => false

def isNatural : Value → Bool
  | .int n => 0 ≤ n
  | _ => false

/-- Codes go beyond those of Unicode. -/
def isCharacter : Value → Bool
  | .int n => 0 ≤ n && n ≤ 0x3fffff
  | _ => false

def isNumber : Value → Bool
  | .int _ | .float _ => true
  | _ => false

def isString : Value → Bool
  | .str _ => true
  | _ => false

def isSymbol : Value → Bool
  | .sym _ => true
  | v => v.isNil

def isKeyword : Value → Bool
  | .sym name => Value.isKeywordName name
  | _ => false

def isVector : Value → Bool
  | .vec _ => true
  | _ => false

def isList : Value → Bool
  | .nil | .list _ | .dotted .. => true
  | _ => false

/-- Dotted lists are no sequences. -/
def isSequence : Value → Bool
  | .nil | .list _ | .str _ | .vec _ => true
  | _ => false

def tests : List (String × Primitive) :=
  [("null", test Value.isNil), ("not", test Value.isNil), ("stringp", test isString),
    ("symbolp", test isSymbol), ("keywordp", test isKeyword), ("consp", test Value.isCons),
    ("listp", test isList), ("atom", test fun v => !v.isCons), ("numberp", test isNumber),
    ("integerp", test isInteger), ("fixnump", test isInteger), ("characterp", test isCharacter),
    ("natnump", test isNatural), ("vectorp", test isVector), ("sequencep", test isSequence),
    ("eq", same Value.eq), ("eql", same eql), ("equal", same Value.equal)]

def sequences : List (String × Primitive) :=
  [("list", Value.ofItems), ("cons", cons), ("car", unary car), ("cdr", unary cdr),
    ("car-safe", safely car), ("cdr-safe", safely cdr), ("caar", path [car, car]),
    ("cadr", path [car, cdr]), ("cdar", path [cdr, car]), ("cddr", path [cdr, cdr]),
    ("caddr", path [car, cdr, cdr]), ("cdddr", path [cdr, cdr, cdr]),
    ("cadar", path [car, cdr, car]),
    ("nthcdr", binary fun n xs => do nthcdr (← n.asInt).toNat xs),
    ("nth", binary fun n xs => do nth (← n.asInt).toNat xs), ("elt", binary element),
    ("length", unary length), ("safe-length", unary length), ("last", unaryOr last),
    ("butlast", unaryOr butLast), ("nbutlast", unaryOr butLast), ("take", binary take),
    ("ntake", binary take), ("append", append), ("nconc", append), ("reverse", unary reverse),
    ("nreverse", unary reverse), ("remove", remove Value.equal), ("delete", remove Value.equal),
    ("remq", remove Value.eq), ("delq", remove Value.eq), ("delete-dups", unary removeDuplicates),
    ("seq-uniq", unary removeDuplicates), ("cl-remove-duplicates", unary removeDuplicates),
    ("member", member Value.equal), ("memq", member Value.eq), ("memql", member Value.eq),
    ("assoc", binaryOr assoc), ("assq", binary (findEntry car Value.eq)),
    ("rassoc", binary (findEntry cdr Value.equal)), ("rassq", binary (findEntry cdr Value.eq)),
    ("alist-get", alistGet), ("plist-get", binaryOr plistGet),
    ("plist-member", binaryOr plistMember),
    ("flatten-tree", unary flatten), ("identity", leading fun v _ => .ok v),
    ("purecopy", leading fun v _ => .ok v), ("copy-sequence", leading fun v _ => .ok v),
    ("copy-tree", leading fun v _ => .ok v), ("copy-alist", leading fun v _ => .ok v),
    ("vector", fun args => .ok (.vec args)), ("sort", binary sort),
    ("seq-sort", binary fun order seq => sort seq order)]

def texts : List (String × Primitive) :=
  [("string=", compareNames (· == ·)), ("string-equal", compareNames (· == ·)),
    ("string<", compareNames fun a b => a < b), ("string-lessp", compareNames fun a b => a < b),
    ("string>", compareNames fun a b => b < a), ("string-greaterp", compareNames fun a b => b < a),
    ("string-prefix-p", affix List.isPrefixOf), ("string-suffix-p", affix Text.endsWith),
    ("string-empty-p", unary fun s => do return .ofBool (← s.asChars).isEmpty),
    ("string-reverse", mapText List.reverse), ("concat", concat), ("substring", substring),
    ("substring-no-properties", substring), ("string", string), ("string-to-char", unary firstChar),
    ("char-to-string", unary charText),
    ("string-to-list", unary fun s => do Value.ofItems (Value.charCodes (← s.asString))),
    ("append-string", unary fun s => do Value.ofItems (Value.charCodes (← s.asString))),
    ("string-to-vector", unary fun s => do return .vec (Value.charCodes (← s.asString))),
    ("upcase", mapCase Text.Case.upper), ("downcase", mapCase Text.Case.lower),
    ("capitalize", mapCase Text.Case.capitalize), ("string-join", unaryOr joinTexts),
    ("make-string", makeString), ("string-replace", ternary replaceText),
    ("string-search", binaryOr searchText), ("number-to-string", unary numberText),
    ("string-to-number", unaryOr parseNumber), ("symbol-name", unary symbolName),
    ("split-string", splitText), ("string-trim", trimBoth),
    ("string-trim-left", trimSide Text.trimLeft), ("string-trim-right", trimSide Text.trimRight),
    ("format", format), ("format-message", format)]

def regexps : List (String × Primitive) :=
  [("regexp-quote", mapText Pattern.quote), ("regexp-opt-charset", unary charset),
    ("regexp-opt", alternatives), ("regexp-opt-depth", unary groupDepth),
    ("wildcard-to-regexp", mapText Pattern.wildcard)]

def all : List (String × Primitive) :=
  arithmetic ++ tests ++ sequences ++ texts ++ regexps

/-- The primitive of a name. -/
def named? (name : String) : Option Primitive :=
  all.lookup name

theorem mem_of_named? {name : String} {f : Primitive} (h : named? name = some f) :
    (name, f) ∈ all :=
  mem_of_lookup h

end PatternLint.Primitive
