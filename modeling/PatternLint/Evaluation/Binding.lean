import PatternLint.Evaluation.Policy
import PatternLint.Primitive.Sequence

/-! Binding and assigning variables. -/

namespace PatternLint.Evaluation

/-- A variable and the form for its first value. -/
def binding? : Value → Option (String × Value)
  | .sym name => some (name, .nil)
  | .list [.sym name] => some (name, .nil)
  | .list [.sym name, init] => some (name, init)
  | _ => none

def bindings? (v : Value) : Option (List (String × Value)) :=
  match v with
  | .list items => items.mapM binding?
  | v => if v.isNil then some [] else none

section Parts

variable {C : Value → Prop} {v : Value} {b : String × Value} {bs : List (String × Value)}

theorem of_binding? (hnil : C .nil) (hlist : ∀ items, C (.list items) → ∀ x ∈ items, C x) (hv : C v)
    (h : binding? v = some b) : C b.2 := by
  unfold binding? at h
  split at h <;> cases h
  · exact hnil
  · exact hnil
  · exact hlist _ hv _ (by simp)

/-- The forms for first values are parts of what they are written in, or `nil`. -/
theorem of_bindings? (hnil : C .nil) (hlist : ∀ items, C (.list items) → ∀ x ∈ items, C x)
    (hv : C v) (h : bindings? v = some bs) : ∀ b ∈ bs, C b.2 := by
  unfold bindings? at h
  split at h
  · rename_i items
    have hitems := hlist items hv
    clear hv
    induction items generalizing bs with
    | nil =>
      cases h
      exact fun _ hb => (List.not_mem_nil hb).elim
    | cons item rest ih =>
      rw [List.mapM_cons] at h
      obtain ⟨b, hb, h⟩ := Option.bind_eq_some_iff.1 h
      obtain ⟨bs, hbs, h⟩ := Option.bind_eq_some_iff.1 h
      cases h
      obtain ⟨hitem, hrest⟩ := List.forall_mem_cons.1 hitems
      exact List.forall_mem_cons.2 ⟨of_binding? hnil hlist hitem hb, ih hbs hrest⟩
  · split at h <;> cases h
    exact fun _ hb => (List.not_mem_nil hb).elim

end Parts

variable (p : Policy) (ev : Evaluator)

/-- All first values are evaluated outside the new frame. -/
def letForm : Handler := fun args env scope =>
  match args with
  | [] => return .unknown
  | head :: forms =>
    match bindings? head with
    | none => return .unknown
    | some bindings => do
      let values ← (p.operand ev).operands (bindings.map (·.2)) env scope
      let names := bindings.map (·.1)
      let frame ← Eval.newFrame (some env) (names.zip values)
      ev.body forms frame (scope.binding names)

/-- Each first value sees the bindings before it. -/
def bindInTurn (frame : FrameId) (scope : Scope) : List (String × Value) → Eval Scope
  | [] => return scope
  | (name, init) :: rest => do
    let v ← p.operand ev init frame scope
    Eval.define frame name v
    bindInTurn frame (scope.binding [name]) rest

def letStarForm : Handler := fun args env scope =>
  match args with
  | [] => return .unknown
  | head :: forms =>
    match bindings? head with
    | none => return .unknown
    | some bindings => do
      let frame ← Eval.newFrame (some env) []
      let inner ← bindInTurn p ev frame scope bindings
      ev.body forms frame inner

/-- Assigns pairs in turn; the value is that of the last one. -/
def setPairs (last : Value) : Handler := fun args env scope =>
  match args with
  | .sym name :: form :: rest => do
    let v ← p.operand ev form env scope
    p.assign name v env scope
    setPairs v rest env scope
  | [] => return last
  | _ => return .unknown

def set : Handler := fun args env scope =>
  if args.length % 2 = 0 then setPairs p ev .nil args env scope else return .unknown

def push : Handler := fun args env scope =>
  match args with
  | [form, .sym name] => do
    let x ← ev form env scope
    let old ← ev (.sym name) env scope
    let new := if x.isUnknown || old.isUnknown then .unknown else Value.prepend [x] old
    p.assign name new env scope
    return new
  | _ => return .unknown

/-- The first item of a list and the other ones. Nothing is known about the parts of an unknown
list. -/
def parts (old : Value) : Except Fault (Value × Value) :=
  if old.isUnknown then .ok (.unknown, .unknown)
  else do return (← Primitive.car old, ← Primitive.cdr old)

def pop : Handler := fun args env scope =>
  match args with
  | [.sym name] => do
    let old ← ev (.sym name) env scope
    let give (first rest : Value) : Eval Value := do
      p.assign name rest env scope
      return first
    Eval.withResult (parts old) (fun (first, rest) => give first rest) (give .unknown .unknown)
  | _ => return .unknown

end PatternLint.Evaluation
