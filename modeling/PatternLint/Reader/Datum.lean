import PatternLint.Reader.Atom

/-! Reading one datum. Shared parts carry labels, whose values are remembered within one top-level
datum. -/

namespace PatternLint.Reader

/-- Labels that have been met, the latest first. -/
abbrev Labels := List (Nat × Value)

/-- What a reading step gives: a result, the labels known after it, and the place behind it. -/
structure Reading (α : Type) where
  value : α
  labels : Labels
  next : Cursor

def malformed (pos : Nat) (problem : Problem) : Except Fault α :=
  .error (.malformed pos problem)

/-- The next token, where one must come. -/
def nextToken (c : Cursor) : Except Fault (Token × Cursor) :=
  match token? false c with
  | .error f => .error f
  | .ok none => c.fail .endOfFile
  | .ok (some r) => .ok r

def firstString? : List Value → Option Value
  | .str text :: _ => some (.str text)
  | _ => none

mutual

/-- The datum that a token begins; `c` is the place behind the token. Every step takes a token, so
a bound of two steps for each character is never reached. -/
def datumFrom : Nat → Labels → Token → Cursor → Except Fault (Reading Value)
  | 0, _, _, c => c.fail .endOfFile
  | bound + 1, labels, tok, c =>
    match tok.lexeme with
    | .atom text escaped => (atomValue text escaped).map fun v => ⟨v, labels, c⟩
    | .string text => .ok ⟨.str text, labels, c⟩
    | .char code => .ok ⟨.int code, labels, c⟩
    | .number n => .ok ⟨.int n, labels, c⟩
    | .sugar s => do
      let (t, next) ← nextToken c
      let r ← datumFrom bound labels t next
      return ⟨.list [.sym s.symbol, r.value], r.labels, r.next⟩
    | .opener .list => listFrom bound tok.start [] labels c
    | .opener .properties => do
      let r ← itemsFrom bound tok.start .paren [] labels c
      match firstString? r.value with
      | some v => return ⟨v, r.labels, r.next⟩
      | none => malformed tok.start .badStringProperties
    | .opener o => do
      let r ← itemsFrom bound tok.start o.closer [] labels c
      return ⟨.vec r.value, r.labels, r.next⟩
    | .boolVector _ => do
      let (t, next) ← nextToken c
      let r ← datumFrom bound labels t next
      match r.value with
      | .str _ => return ⟨.vec [], r.labels, r.next⟩
      | _ => malformed tok.start .badBoolVector
    | .labelDef label => do
      let (t, next) ← nextToken c
      let r ← datumFrom bound labels t next
      return ⟨r.value, (label, r.value) :: r.labels, r.next⟩
    | .labelRef label =>
      match labels.lookup label with
      | some v => .ok ⟨v, labels, c⟩
      | none => malformed tok.start (.undefinedLabel label)
    | .dot => malformed tok.start (.badSyntax ".")
    | .closer k => malformed tok.start (.badSyntax k.text)
    | .extension => malformed tok.start (.badSyntax "#")

/-- The rest of a list that was opened at `origin`; the items read so far are in reverse. -/
def listFrom : Nat → Nat → List Value → Labels → Cursor → Except Fault (Reading Value)
  | 0, origin, _, _, _ => malformed origin .endOfFile
  | bound + 1, origin, items, labels, c => do
    match ← token? false c with
    | none => malformed origin .endOfFile
    | some (tok, next) =>
      match tok.lexeme with
      | .closer .paren => return ⟨Value.ofList items.reverse, labels, next⟩
      | .closer .bracket => malformed tok.start (.badSyntax "]")
      | .dot =>
        if items.isEmpty then malformed tok.start (.badSyntax ".")
        else do
          let (t, afterTail) ← nextToken next
          let r ← datumFrom bound labels t afterTail
          match ← token? false r.next with
          | some (⟨.closer .paren, _, _⟩, after) =>
            return ⟨Value.prepend items.reverse r.value, r.labels, after⟩
          | _ => malformed tok.start .dotContext
      | _ => do
        let r ← datumFrom bound labels tok next
        listFrom bound origin (r.value :: items) r.labels r.next

/-- The rest of a sequence without a dotted tail. -/
def itemsFrom : Nat → Nat → Closer → List Value → Labels → Cursor →
    Except Fault (Reading (List Value))
  | 0, origin, _, _, _, _ => malformed origin .endOfFile
  | bound + 1, origin, closer, items, labels, c => do
    match ← token? false c with
    | none => malformed origin .endOfFile
    | some (tok, next) =>
      match tok.lexeme with
      | .closer k =>
        if k = closer then return ⟨items.reverse, labels, next⟩
        else malformed tok.start (.badSyntax k.text)
      | _ => do
        let r ← datumFrom bound labels tok next
        itemsFrom bound origin closer (r.value :: items) r.labels r.next

end

/-- Reads one datum from a text of at most `size` characters, and gives the place behind it. -/
def datum (size : Nat) (c : Cursor) : Except Fault (Value × Cursor) := do
  let (tok, next) ← nextToken c
  let r ← datumFrom (2 * size + 2) [] tok next
  return (r.value, r.next)

end PatternLint.Reader
