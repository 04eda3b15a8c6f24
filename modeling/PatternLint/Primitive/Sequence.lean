import PatternLint.Primitive.Basic

/-! Operations on lists, association lists, property lists and vectors. Operations that would change
their argument give the changed copy. -/

namespace PatternLint.Primitive

def cons : Primitive := binary fun head tail =>
  .ok (Value.prepend [head] tail)

/-- The first item of a list; the empty list has `nil` for it. -/
def car : Value → Except Fault Value
  | .nil | .list [] => .ok .nil
  | .list (x :: _) => .ok x
  | .dotted (x :: _) _ => .ok x
  | v => .error (.wrongType "listp" v)

/-- The rest of a list; the empty list has `nil` for it. -/
def cdr : Value → Except Fault Value
  | .nil | .list [] => .ok .nil
  | .list (_ :: rest) => Value.ofItems rest
  | .dotted [_] tail => .ok tail
  | .dotted (_ :: rest) tail => .ok (.dotted rest tail)
  | v => .error (.wrongType "listp" v)

/-- Steps through a list, the last step first. -/
def path (steps : List (Value → Except Fault Value)) : Primitive := unary fun v =>
  steps.foldrM (fun step v => step v) v

/-- Leaves atoms aside. -/
def safely (step : Value → Except Fault Value) : Primitive := unary fun v =>
  if v.isCons then step v else .ok .nil

/-- What `n` steps to the rest lead to. Only the first rest can be too long. -/
def nthcdr (n : Nat) : Value → Except Fault Value
  | .nil => .ok .nil
  | .list items =>
    if n = 0 then .ok (.list items)
    else if items.length > maxLength + 1 then .error (.signal .sequenceTooLong)
    else .ok (Value.ofList (items.drop n))
  | .dotted items tail =>
    if n < items.length then .ok (.dotted (items.drop n) tail) else nthcdr (n - items.length) tail
  | v => if n = 0 then .ok v else .error (.wrongType "listp" v)

def nth (n : Nat) (v : Value) : Except Fault Value := do
  car (← nthcdr n v)

def element (seq index : Value) : Except Fault Value := do
  let n ← index.asInt
  match seq with
  | .nil | .list _ | .dotted .. => nth n.toNat seq
  | _ =>
    let items ← seq.asSequence
    match if n < 0 then none else items[n.toNat]? with
    | some v => return v
    | none => .error (.signal .outOfRange)

def length : Value → Except Fault Value
  | .dotted .. => .error (.signal .dottedSequence)
  | v => do return .int (← v.asSequence).length

/-- The last items, one unless a number is given. -/
def last (xs n : Value) : Except Fault Value := do
  let items ← xs.asList
  let count ← n.asIntOr 1
  if count ≤ 0 then return .nil
  Value.ofItems (items.drop (items.length - count.toNat))

/-- All but the last items, one unless a number is given. -/
def butLast (xs n : Value) : Except Fault Value := do
  let items ← xs.asList
  let count ← n.asIntOr 1
  Value.ofItems (items.take (items.length - count.toNat))

def take (n xs : Value) : Except Fault Value := do
  let items ← xs.asList
  Value.ofItems (items.take (← n.asInt).toNat)

/-- The items of all but the last argument in front of the last one. -/
def append : Primitive := fun args => do
  match args.getLast? with
  | none => return .nil
  | some tail =>
    let items := (← args.dropLast.mapM Value.asSequence).flatten
    match tail with
    | .nil => Value.ofItems items
    | .list more => Value.ofItems (items ++ more)
    | tail => return Value.prepend items tail

def reverse : Value → Except Fault Value
  | .str text => .ok (Value.ofChars text.toList.reverse)
  | .vec items => .ok (.vec items.reverse)
  | v => do Value.ofItems (← v.asList).reverse

/-- A test for the sameness of two values. -/
abbrev Sameness := Value → Value → Except Fault Bool

/-- Identity, where floats compare by value. -/
def eql : Sameness
  | .float x, .float y => .ok (Value.sameFloat x y)
  | a, b => Value.eq a b

def same (test : Sameness) : Primitive := binary fun a b => do
  return .ofBool (← test a b)

def removeWhere (test : Value → Except Fault Bool) (items : List Value) :
    Except Fault (List Value) :=
  items.filterM fun x => do return !(← test x)

def remove (test : Sameness) : Primitive := binary fun x seq => do
  Value.ofItems (← removeWhere (test · x) (← seq.asList))

/-- Whether `x` is among `kept`, within a budget. -/
def isAmong (x : Value) (left : Nat) : List Value → Except Fault (Bool × Nat)
  | [] => .ok (false, left)
  | y :: rest => do
    let (ok, left) ← Value.equalWithin x y left
    if ok then return (true, left) else isAmong x left rest

/-- The first of every class of equal items. -/
def distinct (kept : List Value) (left : Nat) : List Value → Except Fault (List Value)
  | [] => .ok kept
  | x :: rest => do
    let (found, left) ← isAmong x left kept
    distinct (if found then kept else kept ++ [x]) left rest

/-- One budget is shared by all comparisons, whose number grows with the square of the length. -/
def removeDuplicates (seq : Value) : Except Fault Value := do
  Value.ofItems (← distinct [] (10 * maxNodes) (← seq.asList))

/-- The items from the first on that passes a test. -/
def fromFirst (test : Value → Except Fault Bool) : List Value → Except Fault (List Value)
  | [] => .ok []
  | x :: rest => do if ← test x then return x :: rest else fromFirst test rest

def member (test : Sameness) : Primitive := binary fun x seq => do
  Value.ofItems (← fromFirst (test · x) (← seq.asList))

/-- The first list among the items whose key, or other part, is the same as `key`. -/
def findEntry (part : Value → Except Fault Value) (test : Sameness) (key alist : Value) :
    Except Fault Value := do
  let entries := (← alist.asList).filter Value.isCons
  return (← entries.findM? fun entry => do test (← part entry) key).getD .nil

def assoc (key alist test : Value) : Except Fault Value :=
  if !test.isNil then .error (.signal .assocTest) else findEntry car Value.equal key alist

/-- The rest of the entry of a key, or a default. -/
def alistGet : Primitive := flexible 2 3 fun
  | [key, alist, default, _, test] => do
    let entry ← if test.isNil then findEntry car Value.eq key alist else assoc key alist test
    if entry.isNil then return default else cdr entry
  | _ => .error .arity

/-- The part of a property list that starts at a property. -/
def fromProperty (prop : Value) : List Value → Except Fault (List Value)
  | [] => .ok []
  | [p] => do return if ← Value.eq p prop then [p] else []
  | p :: v :: rest => do
    if ← Value.eq p prop then return p :: v :: rest else fromProperty prop rest

/-- The value of a property; a last property without a value is not looked at. -/
def propertyValue (prop : Value) : List Value → Except Fault Value
  | p :: v :: rest => do if ← Value.eq p prop then return v else propertyValue prop rest
  | _ => .ok .nil

def plistGet (plist prop test : Value) : Except Fault Value := do
  if !test.isNil then .error (.signal .plistGetTest) else propertyValue prop (← plist.asList)

def plistMember (plist prop test : Value) : Except Fault Value := do
  if !test.isNil then .error (.signal .plistMemberTest)
  else Value.ofItems (← fromProperty prop (← plist.asList))

mutual
/-- The atoms of a tree other than `nil`, in reverse, and what is left of the budget. -/
def leavesOnto (out : List Value) (left : Nat) (tree : Value) :
    Except Fault (List Value × Nat) := do
  let left ← spend left
  match tree with
  | .nil => return (out, left)
  | .list items => leavesAllOnto out left items
  | .dotted items tail =>
    let (out, left) ← leavesAllOnto out left items
    leavesOnto out left tail
  | v => return (v :: out, left)
def leavesAllOnto (out : List Value) (left : Nat) (trees : List Value) :
    Except Fault (List Value × Nat) := do
  match trees with
  | [] => return (out, left)
  | tree :: rest =>
    let (out, left) ← leavesOnto out left tree
    leavesAllOnto out left rest
end

def flatten (tree : Value) : Except Fault Value := do
  Value.ofItems (← leavesOnto [] maxNodes tree).1.reverse

end PatternLint.Primitive
