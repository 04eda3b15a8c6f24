import PatternLint.Evaluation.Frame

/-! Evaluations change a store of frames and global variables, and may end in a fault. What was
changed before a fault stays changed. -/

namespace PatternLint

/-- A global variable: its defining expression, which may be under evaluation, or its value. -/
inductive Global where
  | pending (expr : Value)
  | busy (expr : Value)
  | known (value : Value)
  deriving Inhabited

structure Store where
  frames : Frames
  /-- The number of closures made so far. -/
  closures : Nat
  globals : Table Global
  deriving Inhabited

def Store.empty : Store :=
  ⟨#[], 0, .empty⟩

abbrev Eval := ExceptT Fault (StateM Store)

namespace Eval

def ofExcept (r : Except Fault α) : Eval α :=
  fun s => (r, s)

/-- Runs an evaluation to its end, whatever that is. -/
def attempt (m : Eval α) : Eval (Except Fault α) := fun s =>
  let (r, s) := m s
  (.ok r, s)

/-- Goes on with a result, or otherwise in case of a fault of the language. -/
def withResult (r : Except Fault α) (k : α → Eval Value)
    (otherwise : Eval Value := return .unknown) : Eval Value :=
  match r with
  | .ok a => k a
  | .error (.signal _) => otherwise
  | .error f => throw f

/-- A default result for what is too deep. -/
def orDefault (default : Value) (m : Eval Value) : Eval Value := fun s =>
  match m s with
  | (.error .tooDeep, s) => (.ok default, s)
  | other => other

/-- A fault of the language makes the result unknown. -/
def orUnknown (m : Eval Value) : Eval Value := fun s =>
  match m s with
  | (.error (.signal _), s) => (.ok .unknown, s)
  | other => other

def newFrame (outer : Option FrameId) (bindings : List (String × Value)) : Eval FrameId := fun s =>
  (.ok s.frames.size, { s with frames := s.frames.push ⟨.ofList bindings, outer⟩ })

def define (id : FrameId) (name : String) (v : Value) : Eval Unit := fun s =>
  (.ok (), { s with frames := s.frames.define id name v })

def lookup? (name : String) (id : FrameId) : Eval (Option Value) := fun s =>
  (.ok (s.frames.lookup? name id), s)

/-- Changes the nearest binding, and tells whether there is one. -/
def set (id : FrameId) (name : String) (v : Value) : Eval Bool := fun s =>
  match s.frames.find? name id with
  | some owner => (.ok true, { s with frames := s.frames.define owner name v })
  | none => (.ok false, s)

/-- A new closure, different from all others. -/
def closure (formals : Value) (body : List Value) (frame : FrameId) : Eval Value := fun s =>
  (.ok (.closure formals body (some frame) s.closures), { s with closures := s.closures + 1 })

def global? (name : String) : Eval (Option Global) := fun s =>
  (.ok (s.globals.get? name), s)

def putGlobal (name : String) (g : Global) : Eval Unit := fun s =>
  (.ok (), { s with globals := s.globals.put name g })

end Eval

end PatternLint
