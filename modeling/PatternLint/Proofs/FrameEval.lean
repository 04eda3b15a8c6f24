import PatternLint.Proofs.FrameCalls
import PatternLint.Proofs.SettlingEval

/-! Whole evaluations without functions leave the frames around them as they are. -/

namespace PatternLint

open Evaluation

namespace Region

variable {R : Region} {ev : Evaluator} {w : Store} {env : FrameId} {scope : Scope}
  {args : List Value}
  {defs : Definitions}

/-- In a frame of its own nothing may be assigned in place. -/
theorem at_root {t : Store} {frame : Frame} (hdefs : defs.Bare) (hid : R.start ≤ env)
    (hframe : t.frames[env]? = some frame) (outer expanding : List String) (limit : Nat) :
    R.At t env ⟨defs, env, [], outer, expanding, limit⟩ where
  defs := hdefs
  root := not_kept_of_le hid
  sees := .inr hid
  lt := (Array.getElem?_eq_some_iff.1 hframe).1
  safe := List.forall_mem_nil _

section Step

variable (hev : R.Evaluates ev)
include hev

/-- The expression of a variable is evaluated apart from all frames. -/
theorem gives_globalValue (name : String) (hat : R.At w env scope) :
    R.Gives w (globalValue .plain ev name scope) := by
  refine .bind global fun t o _ ho => ?_
  match o, ho with
  | none, _ => exact gives_unknown
  | some (.known v), ho => exact .give (ho _ rfl)
  | some (.busy _), _ => exact gives_unknown
  | some (.pending expr), ho =>
    have hexpr : expr.Bare := ho _ rfl
    refine .bind (putGlobal hexpr) fun u _ _ _ => ?_
    refine .bind (newFrame (List.forall_mem_nil _) nofun) fun x root _ hroot => ?_
    have hin := at_root hat.defs hroot.1 hroot.2 [] [] scope.loopLimit
    have hfind : R.Gives x (findValue .plain ev expr root scope) :=
      .bind (hev x .nil root _ Value.bare_nil hin) fun y _ hy _ =>
        .orDefault (hev y expr root _ hexpr (hin.later hy)) Value.bare_unknown
    refine .bind (.attempt hfind) ?_
    intro y r _ hr
    cases r with
    | ok v => exact .bind (putGlobal (hr v rfl)) fun _ _ _ _ => .give (hr v rfl)
    | error f => exact .bind (putGlobal hexpr) fun _ _ _ _ => .fail

theorem gives_variableValue {name : String} (hname : name ≠ "lambda") (hat : R.At w env scope) :
    R.Gives w (variableValue .plain ev name env scope) := by
  refine .ite (fun _ => .give Value.bare_nil) fun _ => ?_
  refine .ite (fun _ => .give (Value.bare_sym.2 hname)) fun _ => ?_
  refine .bind (lookup hat.sees) fun t o ht ho => ?_
  cases o with
  | none => exact gives_globalValue hev name (hat.later ht)
  | some v => exact .give (ho v rfl)

theorem handles_form {name : String} {form : SpecialForm} (hname : name ≠ "lambda")
    (h : SpecialForm.named? name = some form) : R.Handles (form.run .plain ev) := by
  cases form with
  | quote => exact handles_quote
  | function => exact handles_function
  | lambda => exact absurd (SpecialForm.named?_lambda h) hname
  | template => exact handles_template hev
  | ifThenElse => exact handles_ifThenElse hev
  | cond => exact handles_cond hev
  | when holds => exact handles_when hev holds
  | and => exact handles_andFrom hev (Value.bare_sym.2 (by decide))
  | or => exact handles_or hev
  | progn => exact handles_body hev
  | valueOfNth index => exact handles_valueOfNth hev index
  | letForm => exact handles_letForm hev
  | letStarForm => exact handles_letStarForm hev
  | set => exact handles_set hev
  | push => exact handles_push hev
  | pop => exact handles_pop hev
  | «while» => exact handles_while hev
  | doList => exact handles_doList hev
  | doTimes => exact handles_doTimes hev
  | mapOver c => exact handles_mapOver hev c
  | mapTogether => exact handles_mapTogether hev
  | reduce => exact handles_reduce hev
  | apply => exact handles_applyForm hev
  | funcall => exact handles_funcall hev
  | rx => exact handles_rx hev
  | rxToString => exact handles_rxToString hev

theorem handles_callByName {head : String} (hhead : head ≠ "lambda") :
    R.Handles (callByName .plain ev head) := by
  intro w args env scope ha hat
  simp only [callByName]
  cases hf : SpecialForm.named? head with
  | some form => exact handles_form hev hhead hf w args env scope ha hat
  | none =>
    have hname := hat.defs.resolve hhead
    dsimp only
    generalize scope.defs.resolve head = name at hname
    cases hm : scope.defs.macros.get? name with
    | some d => exact gives_expandMacro hev (hat.defs.macros name d hm) name w args env scope ha hat
    | none =>
      cases hd : scope.defs.functions.get? name with
      | some d =>
        refine .bind (goes_operands hev ha hat) fun t vs ht hvs => ?_
        exact gives_applyDefinition hev (hat.defs.functions name d hd) hvs.2 (hat.later ht) name
      | none =>
        cases hform : SpecialForm.named? name with
        | some form => exact handles_form hev hname hform w args env scope ha hat
        | none =>
          cases hp : Primitive.named? name with
          | none => exact gives_unknown
          | some f =>
            refine gives_known hev ha hat fun t vs _ hvs => ?_
            exact gives_callPrimitive (fun _ => Primitive.bare_named hp) hvs

theorem evaluates_step : R.Evaluates (step .plain ev) := by
  intro w expr env scope hexpr hat
  match expr, hexpr with
  | .sym name, hname => exact gives_variableValue hev (Value.bare_sym.1 hname) hat
  | .dotted .., _ => exact gives_unknown
  | .list [], hexpr => exact .give hexpr
  | .list (.sym head :: args), hexpr =>
    obtain ⟨hhead, ha⟩ := List.forall_mem_cons.1 (Value.bare_list.1 hexpr)
    exact handles_callByName hev (Value.bare_sym.1 hhead) w args env scope ha hat
  | .list (.list inner :: args), hexpr =>
    have hinner := Value.bare_list.1 ((List.forall_mem_cons.1 (Value.bare_list.1 hexpr)).1)
    have hstuck : step .plain ev (.list (.list inner :: args)) env scope = pure .unknown := by
      rw [step]
      · rintro name ⟨⟩
      · rintro formals body h
        cases h
        exact Value.bare_sym.1 (hinner _ List.mem_cons_self) rfl
    rw [hstuck]
    exact gives_unknown
  | .list (.nil :: _), _ | .list (.str _ :: _), _ | .list (.int _ :: _), _
  | .list (.float _ :: _), _ | .list (.dotted .. :: _), _ | .list (.vec _ :: _), _
  | .list (.closure .. :: _), _ | .list (.unknown :: _), _ => exact gives_unknown
  | .nil, hexpr | .str _, hexpr | .int _, hexpr | .float _, hexpr | .vec _, hexpr
  | .closure .., hexpr | .unknown, hexpr => exact .give hexpr

end Step

section Structure

theorem orNil_bare {v : Value} (h : v.Bare) : (orNil v).Bare := by
  unfold orNil
  split
  · exact Value.bare_nil
  · exact h

theorem gives_build (hev : R.Evaluates ev) {c : Construction} {expr : Value} (hexpr : expr.Bare)
    (h : Construction.of? expr = some c) (hat : R.At w env scope) :
    R.Gives w (c.build ev env scope) := by
  have hcode := construction_code (fun items he => Value.bare_list.1 (he ▸ hexpr)) h
  cases c with
  | list parts =>
    exact .bind (goes_operands hev hcode hat) fun _ vs _ hvs => .ofExcept (.ofItems hvs.2)
  | cons a b =>
    refine .bind (hev w a env scope hcode.1 hat) fun t x ht hx => ?_
    refine .bind (hev t b env scope hcode.2 (hat.later ht)) fun u y _ hy => ?_
    exact .give (.prepend (List.forall_mem_singleton.2 hx) hy)
  | append parts =>
    have hjoined : R.Gives w
        (ev.operands parts env scope >>= fun vs => Eval.ofExcept (Primitive.append vs)) :=
      .bind (goes_operands hev hcode hat) fun _ vs _ hvs => .ofExcept (Primitive.append_bare hvs.2)
    exact .bind (.orUnknown hjoined Value.bare_unknown) fun _ v _ hv => .give (orNil_bare hv)
  | same part => exact hev w part env scope hcode hat
  | template part =>
    refine .bind ((gives_expand_all hev env scope).1 part w hcode hat) fun _ v _ hv => ?_
    exact .give (orNil_bare hv)

end Structure

theorem evaluates_evalBy (depth : Nat) : R.Evaluates (evalBy .plain depth) := by
  induction depth with
  | zero => exact fun _ _ _ _ _ _ => .fail
  | succ depth ih => exact evaluates_step ih

theorem evaluates_evalStructureWithin (depth calls : Nat) :
    R.Evaluates (evalStructureWithin .plain depth calls) := by
  induction depth generalizing calls with
  | zero => exact fun _ _ _ _ _ _ => .fail
  | succ depth ih =>
    cases calls with
    | succ calls => exact ih calls
    | zero =>
      intro w expr env scope hexpr hat
      unfold evalStructureWithin
      split
      · rename_i c hc
        exact gives_build (ih c.calls) hexpr hc hat
      · refine .bind (evaluates_evalBy depth w expr env scope hexpr hat) fun _ v _ hv => ?_
        exact .give (orNil_bare hv)

theorem gives_within {default expr : Value} {outer : Option FrameId} (hev : R.Evaluates ev)
    (hd : default.Bare) (hexpr : expr.Bare) (hdefs : defs.Bare) (houter : ∀ env ∈ outer, R.Sees env)
    (mutables : List String) (loopLimit : Nat) :
    R.Gives w (Evaluation.within ev default expr outer mutables defs loopLimit) := by
  refine .bind (newFrame (List.forall_mem_nil _) houter) fun t root _ hroot => ?_
  have hat := at_root hdefs hroot.1 hroot.2 mutables [] loopLimit
  exact .orDefault (hev t expr root _ hexpr hat) hd

/-- Evaluations do not touch the frames that are kept, as long as no functions come in. -/
theorem gives_evaluate {expr : Value} {outer : Option FrameId} (hexpr : expr.Bare)
    (hdefs : defs.Bare)
    (houter : ∀ env ∈ outer, R.Sees env) (mutables : List String) (loopLimit : Nat) :
    R.Gives w (evaluate expr outer mutables defs loopLimit) :=
  gives_within (evaluates_evalBy maxDepth) Value.bare_unknown hexpr hdefs houter mutables loopLimit

theorem gives_evaluateList {expr : Value} {outer : Option FrameId} (hexpr : expr.Bare)
    (hdefs : defs.Bare) (houter : ∀ env ∈ outer, R.Sees env) (mutables : List String)
    (loopLimit : Nat) : R.Gives w (evaluateList expr outer mutables defs loopLimit) :=
  gives_within (evaluates_evalStructureWithin maxDepth 0) Value.bare_nil hexpr hdefs houter
    mutables loopLimit

/-- All frames of a store. -/
def whole (s : Store) : Region where
  kept i := i < s.frames.size
  start := s.frames.size
  kept_lt _ := id

theorem sees_whole (s : Store) (i : FrameId) : (whole s).Sees i :=
  Nat.lt_or_ge i s.frames.size

end Region

/-- Evaluation changes no frame of its caller, whatever it may assign and however it ends, as long
as there are no functions in the code, the frames and the global variables. -/
theorem evaluate_keeps_frames {s : Store} {expr : Value} {defs : Definitions} (hexpr : expr.Bare)
    (hdefs : defs.Bare) (hglobals : ∀ name g, s.globals.get? name = some g → g.Bare)
    (hvars : ∀ id name v, s.frames.valueIn? name id = some v → v.Bare) (outer : Option FrameId)
    (mutables : List String) (loopLimit : Nat) :
    ∀ id < s.frames.size,
      (evaluate expr outer mutables defs loopLimit s).2.frames[id]? = s.frames[id]? := by
  let R := Region.whole s
  have htidy : R.Tidy s :=
    ⟨Nat.le_refl _, fun _ _ _ _ _ _ _ => Region.sees_whole s _, fun id name v _ =>
      hvars id name v, hglobals⟩
  have hgives : R.Gives s (evaluate expr outer mutables defs loopLimit) :=
    Region.gives_evaluate hexpr hdefs (fun _ _ => Region.sees_whole s _) mutables loopLimit
  exact (hgives s (R.evaluation.refl s) htidy).1.2

end PatternLint
