/-! Lisp data. The same type holds the forms that are read, the values that are computed, and the
answer that nothing is known about a value. -/

namespace PatternLint

/-- Address of a frame of variable bindings. -/
abbrev FrameId := Nat

/-- A list that ends in `nil` is `list`, one that ends in another atom is `dotted`; both have at
least one item in canonical values. A closure carries the frame it was made in, if any, and a
number that sets it apart from all others. -/
inductive Value where
  | nil
  | str (text : String)
  | int (n : Int)
  | float (x : Float)
  | sym (name : String)
  | list (items : List Value)
  | dotted (items : List Value) (tail : Value)
  | vec (items : List Value)
  | closure (formals : Value) (body : List Value) (frame : Option FrameId) (serial : Nat)
  | unknown
  deriving Inhabited

namespace Value

def isNil : Value → Bool
  | nil => true
  | list [] => true
  | _ => false

def isUnknown : Value → Bool
  | unknown => true
  | _ => false

def isCons : Value → Bool
  | list (_ :: _) => true
  | dotted _ _ => true
  | _ => false

/-- The truth value of the language: `t` or `nil`. -/
def ofBool (b : Bool) : Value :=
  if b then sym "t" else nil

def ofList (items : List Value) : Value :=
  if items.isEmpty then nil else list items

/-- Puts items in front of a tail, which may itself be a list of either kind. -/
def prepend (items : List Value) : Value → Value
  | nil => ofList items
  | list more => ofList (items ++ more)
  | dotted more tail => if tail.isNil then ofList (items ++ more) else dotted (items ++ more) tail
  | atom => if items.isEmpty then atom else dotted items atom

/-- A keyword begins with a colon and goes on. -/
def isKeywordName (name : String) : Bool :=
  match name.toList with
  | ':' :: _ :: _ => true
  | _ => false

def symName? : Value → Option String
  | sym name => some name
  | _ => none

def strText? : Value → Option String
  | str text => some text
  | _ => none

mutual
/-- Nesting depth: atoms and closures have depth zero. -/
def depth : Value → Nat
  | list items => depthAll items + 1
  | dotted items tail => max (depthAll items) (depth tail) + 1
  | vec items => depthAll items + 1
  | _ => 0
def depthAll : List Value → Nat
  | [] => 0
  | v :: rest => max (depth v) (depthAll rest)
end

theorem depth_le_depthAll {v : Value} {items : List Value} (h : v ∈ items) :
    v.depth ≤ depthAll items := by
  induction items with
  | nil => cases h
  | cons x rest ih =>
    rw [depthAll]
    rcases List.mem_cons.1 h with rfl | h
    · exact Nat.le_max_left _ _
    · exact Nat.le_trans (ih h) (Nat.le_max_right _ _)

@[simp] theorem isNil_ofList (items : List Value) : (ofList items).isNil = items.isEmpty := by
  cases items <;> simp [ofList, isNil]

@[simp] theorem prepend_nil (items : List Value) : prepend items nil = ofList items := rfl

end Value

end PatternLint
