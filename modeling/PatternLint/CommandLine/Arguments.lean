import PatternLint.Text.Digit
import PatternLint.Text.Search

/-! The arguments of the command line. Options without arguments may be joined behind
one hyphen, and long ones may be cut as long as they stay unambiguous. Behind two
hyphens nothing is an option. -/

namespace PatternLint.CommandLine

inductive Flag where
  | help
  | quiet
  | verbose
  | version
  deriving Repr, DecidableEq

def flags : List (String × Flag) :=
  [("-h", .help), ("--help", .help), ("-q", .quiet), ("--quiet", .quiet), ("-v", .verbose),
    ("--verbose", .verbose), ("--version", .version)]

/-- An argument as it is understood on its own. A value is what follows an option without a
blank, in the same argument. -/
inductive Word where
  | plain (text : String)
  | separator
  | flag (name : String) (f : Flag) (value : Option (List Char))
  | unknown
  deriving Repr, DecidableEq

/-- What the command line asks for. -/
inductive Request where
  | scan (paths : List String) (quiet : Bool)
  | help
  | version
  | misuse
  deriving Repr, DecidableEq

/-- The paths that are to be looked up. -/
def Request.paths : Request → List String
  | .scan paths _ => paths
  | _ => []

def isLong (cs : List Char) : Bool :=
  ['-', '-'].isPrefixOf cs

/-- The text before the first equals sign and the one behind it. -/
def splitValue (cs : List Char) : List Char × Option (List Char) :=
  match Text.find? ['='] cs with
  | some n => (cs.take n, some (cs.drop (n + 1)))
  | none => (cs, none)

/-- The options that an argument may mean. -/
def candidates (cs : List Char) : List Word :=
  if isLong cs then
    let (name, value) := splitValue cs
    (flags.filter fun p => name.isPrefixOf p.1.toList).map fun p => .flag p.1 p.2 value
  else
    (flags.filter fun p => p.1.toList == cs.take 2).map fun p => .flag p.1 p.2 (some (cs.drop 2))

/-- A negative number is no option. -/
def isNegativeNumber (cs : List Char) : Bool :=
  let isDecimal (c : Char) : Bool := (Text.decimalValue? c).isSome
  match cs with
  | '-' :: rest =>
    let tail := rest.dropWhile isDecimal
    match tail with
    | [] => !rest.isEmpty
    | '.' :: fraction => !fraction.isEmpty && fraction.all isDecimal
    | _ => false
  | _ => false

/-- Understands an argument; none if it is ambiguous. -/
def word? (text : String) : Option Word :=
  let cs := text.toList
  if cs.head? ≠ some '-' ∨ cs.length = 1 then some (.plain text)
  else match flags.lookup text with
    | some f => some (.flag text f none)
    | none =>
      let (name, value) := splitValue cs
      match value, flags.lookup (String.ofList name) with
      | some value, some f => some (.flag (String.ofList name) f (some value))
      | _, _ =>
        match candidates cs with
        | [w] => some w
        | _ :: _ :: _ => none
        | [] => some (if isNegativeNumber cs || cs.contains ' ' then .plain text else .unknown)

/-- Understands arguments up to two hyphens; those behind them are plain. -/
def words? : List String → Option (List Word)
  | [] => some []
  | "--" :: rest => some (.separator :: rest.map .plain)
  | text :: rest => do return (← word? text) :: (← words? rest)

/-- The options that are joined in one argument; none if they are not all options. -/
def joined? (name : String) (f : Flag) : Option (List Char) → Option (List Flag)
  | none => some [f]
  | some cs => if isLong name.toList then none else (letters? cs).map (f :: ·)
where
  letters? : List Char → Option (List Flag)
    | [] => none
    | [c] => (flags.lookup (String.ofList ['-', c])).map ([·])
    | c :: rest => do return (← flags.lookup (String.ofList ['-', c])) :: (← letters? rest)

/-- What was understood so far; `strays` tells of arguments that have no place. -/
structure Progress where
  paths : Option (List String)
  quiet : Bool
  strays : Bool

def Progress.finish (s : Progress) : Request :=
  match s.paths with
  | some paths => if s.strays then .misuse else .scan paths s.quiet
  | none => .misuse

/-- Applies options in turn; some of them end the work at once. -/
def Progress.apply (s : Progress) : List Flag → Except Request Progress
  | [] => .ok s
  | .help :: _ => .error .help
  | .version :: _ => .error .version
  | .quiet :: rest => apply { s with quiet := true } rest
  | .verbose :: rest => apply s rest

def isPath : Word → Bool
  | .plain _ | .separator => true
  | _ => false

def texts (ws : List Word) : List String :=
  ws.filterMap fun
    | .plain text => some text
    | _ => none

/-- Takes the paths at the start of some words; later ones that an option parts from them have no
place. -/
def Progress.takePaths (s : Progress) (ws : List Word) : Progress :=
  if s.paths.isNone ∧ texts ws ≠ [] then { s with paths := some (texts ws) }
  else { s with strays := s.strays || !ws.isEmpty }

def understand (s : Progress) (ws : List Word) : Request :=
  match _h : ws with
  | [] => s.finish
  | .flag name f value :: rest =>
    match joined? name f value with
    | none => .misuse
    | some fs =>
      match s.apply fs with
      | .error r => r
      | .ok s => understand s rest
  | .unknown :: rest => understand { s with strays := true } rest
  | w :: rest =>
    understand (s.takePaths (w :: rest.takeWhile isPath)) (rest.dropWhile isPath)
termination_by ws.length
decreasing_by
  · simp
  · simp
  · have := (List.dropWhile_suffix (l := rest) isPath).length_le
    simp; omega

/-- What a command line asks for. -/
def parse (args : List String) : Request :=
  match words? args with
  | some ws => understand ⟨none, false, false⟩ ws
  | none => .misuse

end PatternLint.CommandLine
