import PatternLint.Analysis.Site
import PatternLint.Primitive.Format

/-! Regexps that are put behind a bracket that is still open. -/

namespace PatternLint.Analysis

open Reader (Path)

/-- The set that begins here is not closed: a bracket that comes first, perhaps behind a caret, is a
member of it. -/
def staysOpen (cs : List Char) : Bool :=
  let cs := if cs.head? == some '^' then cs.drop 1 else cs
  let cs := if cs.head? == some ']' then cs.drop 1 else cs
  !cs.contains ']'

/-- A set begins somewhere and is not closed; `escaped` tells whether the
next character is quoted. -/
def opensSet (escaped : Bool) : List Char → Bool
  | [] => false
  | '\\' :: rest => opensSet (!escaped) rest
  | '[' :: rest => (!escaped && staysOpen rest) || opensSet false rest
  | _ :: rest => opensSet false rest

/-- A set may be open at the end of a text. -/
def leavesSetOpen (cs : List Char) : Bool :=
  opensSet false cs

variable [Conduct] (doc : Document)

def reportAll (offset : Nat) (path : Path) : List String → Analyze Unit
  | [] => return
  | message :: rest => do
    Conduct.report doc message none offset path none
    reportAll offset path rest

def reportSplices (arg : Value) (site : Site) : Analyze Unit := do
  let names := (← Analyze.findings).generators arg
  reportAll doc site.offset site.path
    (names.map fun name => "Value from \x60" ++ name ++ "' cannot be spliced into \x60[...]'")

/-- Checks the pieces of a concatenation, the first of which has the given index. -/
def checkPieces (site : Site) (index : Nat) : List Value → Analyze Unit
  | piece :: next :: rest => do
    if piece.strText?.any fun s => leavesSetOpen s.toList then
      reportSplices doc next (← (site.child (index + 1)).take)
    checkPieces site (index + 1) (next :: rest)
  | _ => return

/-- Checks the arguments of the plain conversions of a format string. -/
def checkConversions (fmt : List Char) (form : List Value) (site : Site) :
    List Primitive.Conversion → Analyze Unit
  | [] => return
  | c :: rest => do
    match c.directive with
    | .argument index spec =>
      let place := (index + 2).toNat
      match form[place]? with
      | some arg =>
        if spec.conversion = 's' ∧ leavesSetOpen (fmt.take c.start) then
          reportSplices doc arg (← (site.child place).take)
      | none => pure ()
    | .percent => pure ()
    checkConversions fmt form site rest

/-- Checks what is formatted behind an open bracket. -/
def checkFormat (form : List Value) (site : Site) : Analyze Unit :=
  match form with
  | _ :: .str fmt :: _ =>
    match Primitive.conversions fmt.toList with
    | .ok found => checkConversions doc fmt.toList form site found
    | .error (.signal _) => return
    | .error f => throw f
  | _ => return

end PatternLint.Analysis
