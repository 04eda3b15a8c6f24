import PatternLint.Table
import PatternLint.Fault

/-! Frames of variable bindings. A frame may lie inside another one, which was made before it; the
nearest frame that binds a name decides. Frames are shared: all that see a frame see its changes. -/

namespace PatternLint

structure Frame where
  vars : Table Value
  outer : Option FrameId
  deriving Inhabited

/-- All frames that were made, by address. -/
abbrev Frames := Array Frame

namespace Frames

variable {fs : Frames} {id : FrameId} {name : String} {v : Value}

/-- The nearest frame from `id` outwards that binds a name. -/
def find? (fs : Frames) (name : String) (id : FrameId) : Option FrameId :=
  match fs[id]? with
  | none => none
  | some frame =>
    if frame.vars.contains name then some id
    else match frame.outer with
      | some outer => if outer < id then find? fs name outer else none
      | none => none
termination_by id

def isBound (fs : Frames) (name : String) (id : FrameId) : Bool :=
  (fs.find? name id).isSome

def valueIn? (fs : Frames) (name : String) (id : FrameId) : Option Value :=
  fs[id]?.bind (·.vars.get? name)

/-- The value that a name has as seen from a frame. -/
def lookup? (fs : Frames) (name : String) (id : FrameId) : Option Value :=
  (fs.find? name id).bind fun owner => fs.valueIn? name owner

/-- Binds a name in a frame itself. -/
def define (fs : Frames) (id : FrameId) (name : String) (v : Value) : Frames :=
  fs.modify id fun frame => { frame with vars := frame.vars.put name v }

/-- Changes the nearest binding of a name, if there is one. -/
def set? (fs : Frames) (id : FrameId) (name : String) (v : Value) : Option Frames :=
  (fs.find? name id).map fun owner => fs.define owner name v

def varsOf (fs : Frames) (id : FrameId) : Table Value :=
  match fs[id]? with
  | some frame => frame.vars
  | none => .empty

/-- The bindings of every frame from `id` outwards. -/
def chain (fs : Frames) (id : FrameId) : List (Table Value) :=
  match fs[id]? with
  | none => []
  | some frame =>
    frame.vars :: match frame.outer with
      | some outer => if outer < id then chain fs outer else []
      | none => []
termination_by id

def displayVars (vars : Table Value) : String :=
  "\x7b" ++ ", ".intercalate (vars.entries.map fun (name, v) => name ++ ": " ++ v.display) ++ "\x7d"

/-- The bindings as text, unless one of the values cannot be written. -/
def display (fs : Frames) (id : FrameId) : Except Fault String :=
  let frames := fs.chain id
  if frames.all fun vars => vars.entries.all (·.2.isDisplayable) then
    .ok ("<Environment chain: " ++ " -> ".intercalate (frames.map displayVars) ++ ">")
  else .error (.numeral .wideResult)

@[simp] theorem size_define (fs : Frames) (id : FrameId) (name : String) (v : Value) :
    (fs.define id name v).size = fs.size := by
  simp [define]

theorem getElem?_define_of_ne {other : FrameId} (h : other ≠ id) :
    (fs.define id name v)[other]? = fs[other]? := by
  simp [define, Array.getElem?_modify, Ne.symm h]

theorem getElem?_define_self :
    (fs.define id name v)[id]? =
      fs[id]?.map fun frame => { frame with vars := frame.vars.put name v } := by
  simp [define, Array.getElem?_modify]

end Frames

end PatternLint
