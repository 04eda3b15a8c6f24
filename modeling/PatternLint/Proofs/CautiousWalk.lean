import PatternLint.Analysis.Analyzer
import PatternLint.Proofs.Confinement

/-! The walk through a `let` form whose body begins with assignments in a straight line, as far as
those, and a cautious walk that does the same as long as every operand can be evaluated twice. -/

namespace PatternLint.Analysis

open Evaluation (confinedIn)

namespace Analyze

variable {α β : Type} {f g : Findings}

theorem bind_apply (m : Analyze α) (k : α → Analyze β) (f : Findings) :
    (m >>= k) f = match m f with
      | (.ok a, g) => k a g
      | (.error e, g) => (.error e, g) := by
  change ExceptT.bind m k f = _
  simp only [ExceptT.bind, ExceptT.mk, Bind.bind, StateT.bind]
  rcases m f with ⟨_ | _, _⟩ <;> rfl

theorem bind_eq_ok {m : Analyze α} {k : α → Analyze β} {b : β}
    (h : (m >>= k) f = (.ok b, g)) : ∃ a t, m f = (.ok a, t) ∧ k a t = (.ok b, g) := by
  rw [bind_apply] at h
  split at h
  · exact ⟨_, _, ‹_›, h⟩
  · cases h

theorem bind_of_ok {m : Analyze α} {k : α → Analyze β} {a : α} (h : m f = (.ok a, g)) :
    (m >>= k) f = k a g := by
  rw [bind_apply, h]

theorem pure_eq_ok {a b : α} (h : (pure a : Analyze α) f = (.ok b, g)) : a = b ∧ f = g := by
  cases h
  exact ⟨rfl, rfl⟩

theorem run_apply (m : Definitions → Eval α) (f : Findings) :
    Analyze.run m f = ((m f.defs f.store).1, { f with store := (m f.defs f.store).2 }) :=
  rfl

end Analyze

/-- Every variable among the pairs of a variable and an expression has one of the given names. -/
def Targets (names : List String) : List Value → Prop
  | .sym name :: _ :: rest => name ∈ names ∧ Targets names rest
  | _ => True

/-- Assignments in a straight line, to variables with the given names only. -/
inductive StraightLine (names : List String) : Value → Prop
  | setq {args : List Value} (h : Targets names args) :
      StraightLine names (.list (.sym "setq" :: args))
  | push {args : List Value} (h : ∀ element name, args = [element, .sym name] → name ∈ names) :
      StraightLine names (.list (.sym "push" :: args))
  | pop {args : List Value} (h : ∀ name, args = [.sym name] → name ∈ names) :
      StraightLine names (.list (.sym "pop" :: args))
  | progn {forms : List Value} (h : ∀ form ∈ forms, StraightLine names form) :
      StraightLine names (.list (.sym "progn" :: forms))

variable (doc : Document)

/-- Visiting an expression leaves the store as it is, and its evaluation, to a value and another
store, changes only frames that it makes itself. -/
structure Contained (visit : Visitor) (expr : Value) (p : Place) (f : Findings) (v : Value)
    (t : Store) : Prop where
  kept : f.store.Kept (visit expr p f).2.store
  defs : (visit expr p f).2.defs = f.defs
  run : confinedIn (maxDepth - p.path.length) expr p.env p.mutables f.defs doc.loopLimit
    (visit expr p f).2.store = (.ok v, t)

/-- No closure gets out of an evaluation. -/
def Detached (s : Store) (v : Value) (t : Store) : Prop :=
  v.IsPlain ∧ ∀ name, t.globals.get? name = s.globals.get? name ∨
    ∃ u, t.globals.get? name = some (.known u) ∧ u.IsPlain

open Classical in
/-- Refuses expressions that are not contained, or whose evaluation is not as it should be. -/
noncomputable def guarded (allowed : Store → Value → Store → Prop) (visit : Visitor) : Visitor :=
  fun expr p f =>
    if ∃ v t, Contained doc visit expr p f v t ∧ allowed (visit expr p f).2.store v t then
      visit expr p f
    else (.error Policy.refusal, f)

def anyOutcome : Store → Value → Store → Prop :=
  fun _ _ _ => True

/-- Visits assignments in a straight line, and refuses operands that cannot be evaluated
twice. What is pushed must be detached, since it is evaluated in a frame in which the
variable is assigned then. -/
noncomputable def cautiousVisit : (depth calls : Nat) → Visitor
  | 0, _ => fun _ _ => throw .tooDeep
  | depth + 1, calls + 1 => cautiousVisit depth calls
  | depth + 1, 0 => fun form p =>
    let operands (allowed : Store → Value → Store → Prop) (calls : Nat) : Visitor :=
      guarded doc allowed (visit doc depth calls)
    match form with
    | .list (.sym head :: _) =>
      if head = "progn" then visitStep doc (cautiousVisit depth) form p
      else if head = "push" then visitStep doc (operands Detached) form p
      else visitStep doc (operands anyOutcome) form p
    | _ => visit doc (depth + 1) 0 form p

/-- Visits the bindings of a `let` form at the top of a text, and the first forms of its body. The
result is the frame of its variables. -/
def walkLet (visitInit visitForm : Visitor) (head : String) (bindings : List (String × Value))
    (forms : List Value) (offset : Nat) : Analyze FrameId := do
  let env ← newFrame none []
  let frame ← newFrame (some env) []
  visitBindings doc visitInit (decide (head = "let*")) frame ⟨offset, [], env, []⟩ 0 [] bindings
  visitItems visitForm ⟨offset, [], frame, bindings.map (·.1)⟩ 2 forms
  return frame

variable {doc} {visit visit' : Visitor} {expr : Value} {p : Place} {f g : Findings}
  {allowed : Store → Value → Store → Prop} {head : String} {args forms rest : List Value}

theorem guarded_eq_ok (h : guarded doc allowed visit expr p f = (.ok (), g)) :
    visit expr p f = (.ok (), g) ∧ ∃ v t, Contained doc visit expr p f v t ∧
      allowed g.store v t := by
  unfold guarded at h
  split at h
  · rename_i hc
    rw [h] at hc
    exact ⟨h, hc⟩
  · cases h

theorem visitItems_append (p : Place) (index : Nat) (forms rest : List Value) :
    visitItems visit p index (forms ++ rest) = (do
      visitItems visit p index forms
      visitItems visit p (index + forms.length) rest) := by
  induction forms generalizing index with
  | nil => simp [visitItems]
  | cons form forms ih =>
    simp only [List.cons_append, visitItems, ih, bind_assoc, List.length_cons]
    rw [Nat.add_right_comm, Nat.add_assoc index]

/-- A visit that gets through has room for the form behind all calls, as much as the walk has. -/
theorem cautiousVisit_eq_ok {depth calls : Nat}
    (h : cautiousVisit doc depth calls expr p f = (.ok (), g)) :
    ∃ k, cautiousVisit doc depth calls = cautiousVisit doc (k + 1) 0 ∧
      Analysis.visit doc depth calls = Analysis.visit doc (k + 1) 0 := by
  induction depth generalizing calls with
  | zero => cases h
  | succ depth ih =>
    cases calls with
    | zero => exact ⟨depth, rfl, rfl⟩
    | succ calls => exact ih h

/-- What a construct does not visit itself is visited behind it. -/
theorem visitStep_construct {visit : Nat → Visitor} {c : Construct}
    (h : Construct.named? head = some c) : visitStep doc visit (.list (.sym head :: args)) p = (do
      let done ← c.run doc visit head args p
      if done then return else visitItems (visit 1) p.fixed 1 args) := by
  simp only [visitStep, h, pure_bind]

theorem Analyze.untilTooDeep_of_ok {m : Analyze α} {k : α → Analyze Unit} {a : α}
    (h : m f = (.ok a, g)) : untilTooDeep (m >>= k) f = untilTooDeep (k a) g := by
  unfold untilTooDeep
  rw [bind_of_ok h]

/-- The walk through a `let` form comes to what stands behind the first forms of its body with the
findings it has made up to there. -/
theorem visitTop_let {bindings : Value} {bs : List (String × Value)} {offset : Nat}
    {frame : FrameId}
    (hhead : head = "let" ∨ head = "let*") (hbs : Evaluation.bindings? bindings = some bs)
    (h : walkLet doc (Analysis.visit doc (maxDepth - 1) 1)
      (Analysis.visit doc (maxDepth - 1) 2) head bs
      forms offset f = (.ok frame, g)) :
    visitTop doc (.list (.sym head :: bindings :: (forms ++ rest))) offset f =
      Analyze.untilTooDeep (visitItems (Analysis.visit doc (maxDepth - 1) 2)
        ⟨offset, [], frame, bs.map (·.1)⟩ (2 + forms.length) rest) g := by
  have hc : Construct.named? head = some .letForm := by
    rcases hhead with rfl | rfl <;> rfl
  have hvisit (p : Place) :
      Analysis.visit doc maxDepth 0 (.list (.sym head :: bindings :: (forms ++ rest))) p =
        visitStep doc (Analysis.visit doc (maxDepth - 1))
          (.list (.sym head :: bindings :: (forms ++ rest))) p := rfl
  obtain ⟨env, f₀, hroot, h⟩ := Analyze.bind_eq_ok h
  obtain ⟨frame', f₁, hframe, h⟩ := Analyze.bind_eq_ok h
  obtain ⟨_, f₂, hbindings, h⟩ := Analyze.bind_eq_ok h
  obtain ⟨_, f₃, hitems, h⟩ := Analyze.bind_eq_ok h
  obtain ⟨rfl, rfl⟩ := Analyze.pure_eq_ok h
  rw [visitTop, Analyze.bind_of_ok hroot, hvisit]
  simp only [visitStep_construct hc, Construct.run, visitLet, hbs, visitItems_append, bind_assoc,
    pure_bind, if_true]
  rw [Analyze.untilTooDeep_of_ok hframe, Analyze.untilTooDeep_of_ok hbindings,
    Analyze.untilTooDeep_of_ok hitems]
  simp

end PatternLint.Analysis
