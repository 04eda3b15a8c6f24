import PatternLint.Primitive.Number

/-! Sorting by the standard ascending orders. -/

namespace PatternLint

mutual
/-- Lists cannot be looked up in a table, nor can vectors that hold one. -/
def Value.isHashable : Value → Bool
  | .list _ | .dotted .. => false
  | .vec items => Value.allHashable items
  | _ => true
def Value.allHashable : List Value → Bool
  | [] => true
  | v :: rest => v.isHashable && Value.allHashable rest
end

/-- What items are compared by. -/
inductive SortKey where
  | name (text : String)
  | number (n : Number)

namespace SortKey

def lt : SortKey → SortKey → Bool
  | name a, name b => a < b
  | number a, number b => a.lt b
  | _, _ => false

def byName (v : Value) : Except Fault SortKey :=
  v.asName.map name

def byNumber (v : Value) : Except Fault SortKey :=
  v.asNumber.map number

/-- How the items are turned into keys for an order. -/
def ofOrder (order : Value) : Except Fault (Value → Except Fault SortKey) :=
  match order with
  | .sym "string<" | .sym "string-lessp" => .ok byName
  | .sym "<" => .ok byNumber
  | v => if v.isHashable then .error (Fault.about v (.unsortable v)) else .error .unhashable

end SortKey

namespace Primitive

/-- The items in ascending order; equivalent ones keep theirs. -/
def sorted (key : Value → Except Fault SortKey) (items : List Value) :
    Except Fault (List Value) := do
  let keys ← items.mapM key
  return ((keys.zip items).mergeSort fun a b => !(b.1.lt a.1)).map (·.2)

def sort (seq order : Value) : Except Fault Value := do
  let key ← SortKey.ofOrder order
  match seq with
  | .vec items => return .vec (← sorted key items)
  | v => Value.ofItems (← sorted key (← v.asList))

end Primitive

end PatternLint
