import PatternLint.Evaluation.Evaluator
import PatternLint.Proofs.Endings

/-! What single steps of an evaluation come to. -/

namespace PatternLint

open Evaluation

variable {p : Policy} {depth : Nat} {env : FrameId} {scope : Scope} {s : Store} {args : List Value}

section Limit

variable {ev : Evaluator} {default expr v : Value} {outer : Option FrameId} {mutables : List String}
  {defs : Definitions} {loopLimit : Nat}

/-- Evaluates in a fresh root frame inside `outer`, where nothing makes up for what is too deep. -/
def Evaluation.inRoot (ev : Evaluator) (expr : Value) (outer : Option FrameId)
    (mutables : List String) (defs : Definitions) (loopLimit : Nat) : Eval Value := do
  let root ← Eval.newFrame outer []
  ev expr root ⟨defs, root, [], mutables, [], loopLimit⟩

theorem within_apply : within ev default expr outer mutables defs loopLimit s =
    (inRoot ev expr outer mutables defs loopLimit).orDefault default s :=
  rfl

/-- The evaluation of an expression is given up, since it comes to the limit on its depth. The
values of global variables that are given up on the way do not count. -/
def GivenUp (expr : Value) (outer : Option FrameId) (mutables : List String) (defs : Definitions)
    (loopLimit : Nat) (s : Store) : Prop :=
  (inRoot (eval maxDepth) expr outer mutables defs loopLimit s).1 = .error .tooDeep

theorem evaluate_of_givenUp (h : GivenUp expr outer mutables defs loopLimit s) :
    (evaluate expr outer mutables defs loopLimit s).1 = .ok .unknown := by
  rw [evaluate, evaluateBy, within_apply, Eval.orDefault]
  split
  · rfl
  · rename_i hother
    exact (hother _ (Prod.ext h rfl)).elim

theorem not_givenUp {t : Store} (hrun : evaluate expr outer mutables defs loopLimit s = (.ok v, t))
    (hv : v ≠ .unknown) : ¬GivenUp expr outer mutables defs loopLimit s := by
  intro h
  have hunknown := evaluate_of_givenUp h
  rw [hrun] at hunknown
  exact hv (Except.ok.inj hunknown)

theorem evaluate_of_inRoot {t : Store}
    (h : inRoot (eval maxDepth) expr outer mutables defs loopLimit s = (.ok v, t)) :
    evaluate expr outer mutables defs loopLimit s = (.ok v, t) :=
  Eval.orDefault_ok .unknown h

/-- Otherwise a result comes about without a default. -/
theorem inRoot_of_evaluate {t : Store} (h : ¬GivenUp expr outer mutables defs loopLimit s)
    (hrun : evaluate expr outer mutables defs loopLimit s = (.ok v, t)) :
    inRoot (eval maxDepth) expr outer mutables defs loopLimit s = (.ok v, t) := by
  rw [evaluate, evaluateBy, within_apply, Eval.orDefault] at hrun
  split at hrun
  · rename_i hdeep
    exact (h (congrArg Prod.fst hdeep)).elim
  · exact hrun

/-- An expression in calls of `identity`, one in another. -/
def wrapped : Nat → Value → Value
  | 0, expr => expr
  | n + 1, expr => .list [.sym "identity", wrapped n expr]

/-- The variable `k` waits for its value, the more of the depth it takes the larger `n` is. -/
def waiting (n : Nat) : Store :=
  ⟨#[], 0, ⟨[("k", .pending (wrapped n (.int 7)))]⟩⟩

end Limit

section Symbols

variable {name : String} {v : Value}

/-- The value of a symbol, where it is a constant or a bound variable. -/
def Frames.symbol? (fs : Frames) (name : String) (env : FrameId) : Option Value :=
  if name = "nil" then some .nil
  else if name = "t" ∨ Value.isKeywordName name then some (.sym name)
  else fs.lookup? name env

theorem evalBy_symbol (h : s.frames.symbol? name env = some v) :
    evalBy p (depth + 1) (.sym name) env scope s = (.ok v, s) := by
  change variableValue p (evalBy p depth) name env scope s = _
  unfold Frames.symbol? at h
  unfold variableValue
  split at h
  · cases h
    rw [if_pos ‹_›]
    rfl
  · rw [if_neg ‹_›]
    split at h
    · cases h
      rw [if_pos ‹_›]
      rfl
    · rw [if_neg ‹_›, Eval.bind_apply, Eval.lookup?, h]
      rfl

/-- Any other symbol is a global variable. -/
theorem evalBy_global (h : s.frames.symbol? name env = none) :
    evalBy p (depth + 1) (.sym name) env scope s = globalValue p (evalBy p depth) name scope s := by
  change variableValue p (evalBy p depth) name env scope s = _
  unfold Frames.symbol? at h
  unfold variableValue
  split at h
  · cases h
  · rw [if_neg ‹_›]
    split at h
    · cases h
    · rw [if_neg ‹_›, Eval.bind_apply, Eval.lookup?, h]

end Symbols

section Globals

variable {ev : Evaluator} {name : String} {e v : Value}

/-- The store while the value of a variable is being found in a frame of its own. -/
def Store.finding (s : Store) (name : String) (e : Value) : Store :=
  { s with frames := s.frames.push ⟨.ofList [], none⟩, globals := s.globals.put name (.busy e) }

/-- What a variable is after its expression was evaluated. -/
def Global.found (e : Value) : Except Fault Value → Global
  | .ok v => .known v
  | .error _ => .pending e

def Store.withGlobal (s : Store) (name : String) (g : Global) : Store :=
  { s with globals := s.globals.put name g }

theorem globalValue_none (h : s.globals.get? name = none) :
    globalValue p ev name scope s = (.ok .unknown, s) := by
  simp only [globalValue, Eval.bind_apply, Eval.global?, h]
  rfl

theorem globalValue_known (h : s.globals.get? name = some (.known v)) :
    globalValue p ev name scope s = (.ok v, s) := by
  simp only [globalValue, Eval.bind_apply, Eval.global?, h]
  rfl

theorem globalValue_busy (h : s.globals.get? name = some (.busy e)) :
    globalValue p ev name scope s = (.ok .unknown, s) := by
  simp only [globalValue, Eval.bind_apply, Eval.global?, h]
  rfl

theorem globalValue_pending (h : s.globals.get? name = some (.pending e)) :
    globalValue p ev name scope s =
      let r := findValue p ev e s.frames.size scope (s.finding name e)
      (r.1, r.2.withGlobal name (.found e r.1)) := by
  rcases hr : findValue p ev e s.frames.size scope (s.finding name e) with ⟨f | v, t⟩
  all_goals
    unfold Store.finding at hr
    simp only [globalValue, Eval.bind_apply, Eval.global?, h, Eval.putGlobal, Eval.newFrame,
      Eval.attempt, hr]
    rfl

/-- A variable whose value is known from then on is known in the store. -/
theorem known_of_globalValue {t : Store} (h : globalValue p ev name scope s = (.ok v, t))
    (hv : v ≠ .unknown) : t.globals.get? name = some (.known v) := by
  rcases hg : s.globals.get? name with _ | e | e | x
  · rw [globalValue_none hg] at h
    cases h
    exact (hv rfl).elim
  · rw [globalValue_pending hg] at h
    dsimp only at h
    cases hr : (findValue p ev e s.frames.size scope (s.finding name e)).1 with
    | error f =>
      rw [hr] at h
      cases h
    | ok x =>
      rw [hr] at h
      cases h
      exact Table.get?_put_self _ _ _
  · rw [globalValue_busy hg] at h
    cases h
    exact (hv rfl).elim
  · rw [globalValue_known hg] at h
    cases h
    exact hg

end Globals

theorem evalBy_form {head : String} {form : SpecialForm}
    (h : SpecialForm.named? head = some form) :
    evalBy p (depth + 1) (.list (.sym head :: args)) env scope =
      form.run p (evalBy p depth) args env scope := by
  simp only [evalBy, step, callByName, h]

/-- The value of a constant or of quoted data. -/
def Value.constant? : Value → Option Value
  | list [sym "quote", v] => some (if isUnquote v then unknown else v)
  | list [sym "function", sym name] => some (sym name)
  | sym name =>
    if name = "nil" then some nil
    else if name = "t" ∨ isKeywordName name then some (sym name)
    else none
  | nil => some nil
  | str text => some (str text)
  | int n => some (int n)
  | float x => some (float x)
  | vec items => some (vec items)
  | _ => none

/-- Constants have their value everywhere, and without effect. -/
theorem evalBy_constant {v x : Value} (h : v.constant? = some x) :
    evalBy p (depth + 1) v env scope s = (.ok x, s) := by
  unfold Value.constant? at h
  split at h
  case h_1 =>
    cases h
    rfl
  case h_2 =>
    cases h
    rfl
  case h_3 =>
    refine evalBy_symbol ?_
    unfold Frames.symbol?
    split at h
    · rw [if_pos ‹_›, h]
    · rw [if_neg ‹_›]
      split at h
      · rw [if_pos ‹_›, h]
      · cases h
  all_goals
    cases h
    try rfl

theorem operands_constant {values : List Value} (h : args.mapM Value.constant? = some values) :
    (evalBy p (depth + 1)).operands args env scope s = (.ok values, s) := by
  induction args generalizing values with
  | nil =>
    cases h
    rfl
  | cons v rest ih =>
    rw [List.mapM_cons] at h
    obtain ⟨x, hx, h⟩ := Option.bind_eq_some_iff.1 h
    obtain ⟨xs, hxs, h⟩ := Option.bind_eq_some_iff.1 h
    cases h
    have hrest := ih hxs
    rw [Evaluator.operands] at hrest ⊢
    simp only [List.mapM_cons, Eval.bind_apply, evalBy_constant hx, hrest]
    rfl

/-- A name that stands for a function of the text and for nothing else. -/
structure Definitions.Local (defs : Definitions) (name : String) (d : Definition) : Prop where
  function : defs.functions.get? name = some d
  not_macro : defs.macros.get? name = none
  not_alias : defs.aliases.get? name = none
  not_form : SpecialForm.named? name = none

/-- A call of a function of the text with constant arguments enters its definition at once. -/
theorem eval_localCall (scope : Scope) {name : String} {d : Definition} {values : List Value}
    (h : scope.defs.Local name d) (hargs : args.mapM Value.constant? = some values) :
    eval (depth + 2) (.list (.sym name :: args)) env scope s =
      applyDefinition .plain (eval (depth + 1)) name d values scope s := by
  have hname : scope.defs.resolve name = name := by
    simp only [Definitions.resolve, Definitions.maxLinks, Definitions.follow, h.not_alias]
  have hoperands : (Policy.plain.operand (eval (depth + 1))).operands args env scope s =
      (.ok values, s) := operands_constant hargs
  change callByName .plain (eval (depth + 1)) name args env scope s = _
  simp only [callByName, h.not_form, hname, h.not_macro, h.function, Eval.bind_apply, hoperands]

end PatternLint
