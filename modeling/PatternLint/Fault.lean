import PatternLint.Value.Display

/-! Why an operation on values has no result. A signal is an error of the modelled language; the
other faults come from arithmetic, from numerals and from limits of the evaluation itself. -/

namespace PatternLint

inductive Signal where
  | wrongType (expected : String) (value : Value)
  | dottedSequence
  | sequenceTooLong
  | stringTooLong
  | structureTooLarge
  | overflow
  | divisionByZero
  | outOfRange
  | identityUnknown
  | assocTest
  | plistGetTest
  | plistMemberTest
  | zeroIncrement
  | emptyText
  | unprintable (value : Value)
  | splitTrim
  | splitSeparator
  | trimRegexp
  | formatEnd
  | formatArguments
  | formatWidth
  | formatOperation (c : Char)
  | unsortable (order : Value)

def Signal.message : Signal → String
  | .wrongType expected value => s!"Wrong type argument: {expected}, " ++ value.display
  | .dottedSequence => "Wrong type argument: listp"
  | .sequenceTooLong => "Sequence too long"
  | .stringTooLong => "String too long"
  | .structureTooLarge => "Structure too large"
  | .overflow => "Arithmetic overflow error"
  | .divisionByZero => "Arithmetic error"
  | .outOfRange => "Args out of range"
  | .identityUnknown => "eq on non-immediate values"
  | .assocTest => "assoc with test function"
  | .plistGetTest => "plist-get with predicate"
  | .plistMemberTest => "plist-member with predicate"
  | .zeroIncrement => "The increment can not be zero"
  | .emptyText => "Wrong length argument"
  | .unprintable value => "Cannot print " ++ value.display
  | .splitTrim => "split-string with trim"
  | .splitSeparator => "split-string with a non-literal separator"
  | .trimRegexp => "string-trim with a custom regexp"
  | .formatEnd => "Format string ends in middle of format specifier"
  | .formatArguments => "Not enough arguments for format string"
  | .formatWidth => "Format field too wide"
  | .formatOperation c => "Invalid format operation %" ++ c.toString
  | .unsortable order => "Cannot sort by " ++ order.display

/-- Why a structured regexp cannot be written. -/
inductive RxFault where
  | badCharacter (value : Value)
  | reversedRange (text : String)
  | reversedPair
  | badSetArgument (value : Value)
  | badSyntaxClass (value : Value)
  | badCategory (value : Value)
  | badNegation (value : Value)
  | badCount (value : Value)
  | reversedBounds
  | badOperator (value : Value)
  | groupNumber
  | backReference
  | unknownForm (name : String)
  | unknownSymbol (name : String)
  | emptyForm
  | badForm (value : Value)

def RxFault.message : RxFault → String
  | .badCharacter value => "Invalid character " ++ value.display
  | .reversedRange text => "Invalid rx `any' range: " ++ text
  | .reversedPair => "Invalid rx `any' range"
  | .badSetArgument value => "Invalid rx `any' argument: " ++ value.display
  | .badSyntaxClass value => "Unknown rx syntax name: " ++ value.display
  | .badCategory value => "Unknown rx category: " ++ value.display
  | .badNegation value => "Illegal argument to rx `not': " ++ value.display
  | .badCount value => "Invalid repetition count: " ++ value.display
  | .reversedBounds => "rx repetition with reversed bounds"
  | .badOperator value => "Bad rx operator: " ++ value.display
  | .groupNumber => "rx group number must be positive"
  | .backReference => "rx `backref' requires an argument in the range 1..9"
  | .unknownForm name => s!"Unknown rx form `{name}'"
  | .unknownSymbol name => s!"Unknown rx symbol `{name}'"
  | .emptyForm => "Empty rx form"
  | .badForm value => "Bad rx form: " ++ value.display

inductive Fault where
  | signal (s : Signal)
  | rx (f : RxFault)
  | numeral (f : Text.Numeral.Fault)
  | arity
  | unhashable
  | noElement
  | notCharacter
  | wideCharacter
  | wideFloat
  | zeroDivisor
  | zeroRemainder
  | notANumber
  | infinite
  | emptyDigitClass
  | badName (value : Value)
  | tooDeep

namespace Fault

/-- A value that cannot be written makes the complaint about it fail in turn. -/
def about (value : Value) (s : Signal) : Fault :=
  if value.isDisplayable then .signal s else .numeral .wideResult

def wrongType (expected : String) (value : Value) : Fault :=
  about value (.wrongType expected value)

def aboutRx (value : Value) (f : RxFault) : Fault :=
  if value.isDisplayable then .rx f else .numeral .wideResult

/-- Only symbols name variables. -/
def asVariable : Value → Except Fault String
  | .sym name => .ok name
  | v => .error (if v.isDisplayable then .badName v else .numeral .wideResult)

def nameMessage (value : Value) : String :=
  "Cannot define " ++ value.display ++ " as a symbol"

/-- The faults that a call of a primitive turns into an unknown result. -/
def isContained : Fault → Bool
  | .rx _ => false
  | .emptyDigitClass => false
  | _ => true

end Fault

/-- How many calls may be under way at a time. -/
def maxDepth : Nat := 1000

/-- One more call is under way, within those that are left. -/
def enter : Nat → Except Fault Nat
  | 0 => .error .tooDeep
  | left + 1 => .ok left

end PatternLint
