import PatternLint.Value.Equal

/-! Primitive operations as partial functions on lists of arguments, and what their arguments must
be. A call with the wrong number of arguments is a fault of its own. -/

namespace PatternLint

/-- Longest list or text that an operation may build. -/
def maxLength : Nat := 100000

/-- Integers have at most this many binary digits. -/
def integerWidth : Nat := 65536

abbrev Primitive := List Value → Except Fault Value

namespace Primitive

def unary (f : Value → Except Fault Value) : Primitive
  | [a] => f a
  | _ => .error .arity

def binary (f : Value → Value → Except Fault Value) : Primitive
  | [a, b] => f a b
  | _ => .error .arity

def ternary (f : Value → Value → Value → Except Fault Value) : Primitive
  | [a, b, c] => f a b c
  | _ => .error .arity

/-- At least `required` arguments and at most `optional` more; those left out are `nil`. -/
def flexible (required optional : Nat) (f : List Value → Except Fault Value) :
    Primitive := fun args =>
  if args.length < required ∨ required + optional < args.length then .error .arity
  else f (args ++ List.replicate (required + optional - args.length) .nil)

/-- One argument, and perhaps a second. -/
def unaryOr (f : Value → Value → Except Fault Value) : Primitive
  | [a] => f a .nil
  | [a, b] => f a b
  | _ => .error .arity

/-- Two arguments, and perhaps a third. -/
def binaryOr (f : Value → Value → Value → Except Fault Value) : Primitive
  | [a, b] => f a b .nil
  | [a, b, c] => f a b c
  | _ => .error .arity

/-- A first argument, and any number of others. -/
def leading (f : Value → List Value → Except Fault Value) : Primitive
  | a :: rest => f a rest
  | [] => .error .arity

/-- A total test of one argument. -/
def test (p : Value → Bool) : Primitive :=
  unary fun a => .ok (.ofBool (p a))

theorem binary_ok {f : Value → Value → Except Fault Value} {args : List Value} {v : Value}
    (h : binary f args = .ok v) : ∃ a b, args = [a, b] ∧ f a b = .ok v := by
  unfold binary at h
  split at h
  · exact ⟨_, _, rfl, h⟩
  · cases h

end Primitive

namespace Value

/-- The items of a proper list. -/
def asList : Value → Except Fault (List Value)
  | nil => .ok []
  | list items => .ok items
  | v => .error (.wrongType "listp" v)

def charCodes (text : String) : List Value :=
  text.toList.map fun c => int c.toNat

/-- The items of a list or vector, or the characters of a text as integers. -/
def asSequence : Value → Except Fault (List Value)
  | str text => .ok (charCodes text)
  | vec items => .ok items
  | v => v.asList

def asString : Value → Except Fault String
  | str text => .ok text
  | v => .error (.wrongType "stringp" v)

def asChars (v : Value) : Except Fault (List Char) :=
  v.asString.map String.toList

def asInt : Value → Except Fault Int
  | int n => .ok n
  | v => .error (.wrongType "integerp" v)

/-- An optional integer. -/
def asIntOr (default : Int) (v : Value) : Except Fault Int :=
  if v.isNil then .ok default else v.asInt

/-- The text of a string or the name of a symbol. -/
def asName : Value → Except Fault String
  | sym name => .ok name
  | v => if v.isNil then .ok "nil" else v.asString

def ofChars (cs : List Char) : Value :=
  str (String.ofList cs)

/-- A list of items, unless it is too long. -/
def ofItems (items : List Value) : Except Fault Value :=
  if items.length > maxLength then .error (.signal .sequenceTooLong) else .ok (ofList items)

/-- An integer, unless it is too wide. -/
def ofInt (n : Int) : Except Fault Value :=
  if n.natAbs ≥ pow2 integerWidth then .error (.signal .overflow) else .ok (int n)

theorem ofItems_ok {items : List Value} {v : Value} (h : ofItems items = .ok v) :
    items.length ≤ maxLength ∧ v = ofList items := by
  unfold ofItems at h
  split at h
  · cases h
  · cases h; exact ⟨by omega, rfl⟩

theorem asList_ofList (items : List Value) : (ofList items).asList = .ok items := by
  cases items <;> rfl

theorem asChars_ofChars (cs : List Char) : (ofChars cs).asChars = .ok cs :=
  congrArg Except.ok String.toList_ofList

theorem mapM_asInt (codes : List Int) : (codes.map int).mapM asInt = .ok codes := by
  induction codes with
  | nil => rfl
  | cons n codes ih =>
    rw [List.map_cons, List.mapM_cons, ih]
    rfl

end Value

end PatternLint
