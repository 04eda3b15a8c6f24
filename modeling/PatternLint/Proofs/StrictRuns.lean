import PatternLint.Proofs.KnownStructure
import PatternLint.Proofs.Progress

/-! Evaluations that do not come to the bound of their depth. What they give is the same with any
larger bound, and whatever running out of depth is answered with. -/

namespace PatternLint

variable {expr v v' : Value} {env : FrameId} {scope : Scope} {s t t' : Store} {depth depth' : Nat}
  {fault : Fault}

/-- From some depth on an evaluation gives `v` and leaves `t`, whatever the
fault for what is too deep. -/
def Yields (expr : Value) (env : FrameId) (scope : Scope) (s : Store) (v : Value)
    (t : Store) : Prop :=
  ∃ depth, ∀ more fault,
    evalBy { Policy.plain with tooDeep := fault } (depth + more) expr env scope s = (.ok v, t)

/-- The language in which nothing makes up for a depth that was not enough. -/
def Policy.strict : Policy :=
  { Policy.plain with tooDeep := refusal }

namespace Simulation

/-- A strict evaluation beside one that may go deeper. -/
abbrev deepening (fault : Fault) : Simulation :=
  Supervision.along (fun _ => True) Store.progress (fun _ _ => True) .strict
    { Policy.plain with tooDeep := fault } 0 (· = Policy.refusal)

theorem deepening_accompanies (fault : Fault) :
    Supervision.Accompanies (fun _ => True) Store.progress (fun _ _ => True) .strict
      { Policy.plain with tooDeep := fault } 0 (· = Policy.refusal) :=
  progress_accompanies_of Policy.refusal fault (by rintro _ rfl; exact nofun)

theorem deepening_sound (fault : Fault) : (deepening fault).Sound :=
  Supervision.along_sound (deepening_accompanies fault)

theorem strict_deepens (hd : depth ≤ depth') (fault : Fault) :
    (deepening fault).Follows (evalBy .strict depth)
      (evalBy { Policy.plain with tooDeep := fault } depth') :=
  evalBy_follows_of (deepening_sound fault) (.inr ⟨hd, rfl⟩) fun _ _ _ hev =>
    progress_readsGlobals_of (deepening_accompanies fault) hev

end Simulation

open Simulation

/-- An evaluation does not come to the bound on its depth, and neither do those of the variables
that it asks for: without anything that makes up for the depth, it ends otherwise than by that. -/
def InDepth (depth : Nat) (expr : Value) (env : FrameId) (scope : Scope) (s : Store) : Prop :=
  (evalBy .strict depth expr env scope s).1 ≠ .error Policy.refusal

theorem InDepth.of_ok (h : evalBy .strict depth expr env scope s = (.ok v, t)) :
    InDepth depth expr env scope s := by
  rw [InDepth, h]
  exact nofun

/-- Unless a strict run comes to its bound, any run that may go as deep ends as it does. -/
theorem strict_ends (hd : depth ≤ depth') (fault : Fault) :
    Supervision.EndTogether (fun _ => True) Store.progress (· = Policy.refusal) s
      (evalBy .strict depth expr env scope s)
      (evalBy { Policy.plain with tooDeep := fault } depth' expr env scope s) :=
  Supervision.along_ends (strict_deepens hd fault) (Nat.zero_le _) trivial trivial (Nat.zero_le _)

theorem strict_deeper (h : evalBy .strict depth expr env scope s = (.ok v, t)) (hd : depth ≤ depth')
    (fault : Fault) :
    evalBy { Policy.plain with tooDeep := fault } depth' expr env scope s = (.ok v, t) :=
  ((strict_ends hd fault).of_ok h).1

theorem InDepth.strict (h : InDepth depth expr env scope s)
    (hrun : eval depth expr env scope s = (.ok v, t)) :
    evalBy .strict depth expr env scope s = (.ok v, t) :=
  (strict_ends (Nat.le_refl _) .tooDeep).of_other h hrun

theorem yields_iff :
    Yields expr env scope s v t ↔ ∃ depth, evalBy .strict depth expr env scope s = (.ok v, t) :=
  ⟨fun ⟨depth, h⟩ => ⟨depth, h 0 Policy.refusal⟩,
    fun ⟨depth, h⟩ => ⟨depth, fun _ fault => strict_deeper h (Nat.le_add_right _ _) fault⟩⟩

/-- The value of an evaluation that does not come to its bound is the one for all depths. -/
theorem InDepth.yields (h : InDepth depth expr env scope s)
    (hrun : eval depth expr env scope s = (.ok v, t)) : Yields expr env scope s v t :=
  yields_iff.2 ⟨depth, h.strict hrun⟩

theorem InDepth.eval_of_yields (h : InDepth depth expr env scope s)
    (hv : Yields expr env scope s v t) : eval depth expr env scope s = (.ok v, t) := by
  obtain ⟨depth', hrun⟩ := yields_iff.1 hv
  rcases Nat.le_total depth' depth with hd | hd
  · exact strict_deeper hrun hd .tooDeep
  · exact strict_deeper ((strict_ends hd Policy.refusal).of_other h hrun) (Nat.le_refl _) .tooDeep

end PatternLint

/-! Operands whose values are all known, and the calls that are made with them. -/

namespace PatternLint

open Evaluation

theorem Eval.bind_eq_ok_iff {α β : Type} {m : Eval α} {k : α → Eval β} {s u : Store} {b : β} :
    (m >>= k) s = (.ok b, u) ↔ ∃ a t, m s = (.ok a, t) ∧ k a t = (.ok b, u) := by
  refine ⟨Eval.bind_eq_ok, ?_⟩
  rintro ⟨a, t, hm, hk⟩
  rw [Eval.bind_apply, hm]
  exact hk

/-- A name for which the text has no definition and no alias. -/
abbrev Definitions.Lacks (defs : Definitions) (name : String) : Prop :=
  defs.functions.get? name = none ∧ defs.macros.get? name = none ∧ defs.aliases.get? name = none

variable {p : Policy} {ev : Evaluator} {arg : Value} {args more values : List Value}
  {env : FrameId} {scope : Scope} {s t : Store} {name : String} {v : Value}

namespace Evaluator

theorem operands_single : ev.operands [arg] env scope s = (.ok values, t) ↔
    ∃ v, ev arg env scope s = (.ok v, t) ∧ values = [v] := by
  simp only [operands, List.mapM_cons, List.mapM_nil, Eval.bind_eq_ok_iff]
  constructor
  · rintro ⟨v, u, hv, _, _, hnil, hret⟩
    cases hnil
    cases hret
    exact ⟨v, hv, rfl⟩
  · rintro ⟨v, hv, rfl⟩
    exact ⟨v, t, hv, [], t, rfl, rfl⟩

/-- Operands that are all known are evaluated as operands that may be unknown. -/
theorem knownOnto_eq_some {acc vs : List Value} :
    ev.knownOnto acc args env scope s = (.ok (some vs), t) ↔
      ∃ values, ev.operands args env scope s = (.ok values, t) ∧
        (∀ v ∈ values, v.isUnknown = false) ∧ vs = acc.reverse ++ values := by
  induction args generalizing acc s with
  | nil =>
    constructor
    · intro h
      cases h
      exact ⟨[], rfl, List.forall_mem_nil _, (List.append_nil _).symm⟩
    · rintro ⟨values, h, -, rfl⟩
      cases h
      change (pure (some acc.reverse) : Eval _) t = (.ok (some (acc.reverse ++ [])), t)
      rw [List.append_nil]
      rfl
  | cons arg rest ih =>
    simp only [knownOnto, operands, List.mapM_cons, Eval.bind_eq_ok_iff] at ih ⊢
    constructor
    · rintro ⟨v, u, hv, h⟩
      cases hu : v.isUnknown with
      | true =>
        rw [hu] at h
        cases h
      | false =>
        rw [hu] at h
        obtain ⟨values, hvalues, hknown, rfl⟩ := ih.1 h
        exact ⟨v :: values, ⟨v, u, hv, values, t, hvalues, rfl⟩,
          List.forall_mem_cons.2 ⟨hu, hknown⟩, by simp⟩
    · rintro ⟨_, ⟨v, u, hv, values, _, hvalues, hret⟩, hknown, rfl⟩
      cases hret
      obtain ⟨hu, hknown⟩ := List.forall_mem_cons.1 hknown
      refine ⟨v, u, hv, ?_⟩
      rw [hu]
      exact ih.2 ⟨values, hvalues, hknown, by simp⟩

theorem known_eq_some : ev.known args env scope s = (.ok (some values), t) ↔
    ev.operands args env scope s = (.ok values, t) ∧ ∀ v ∈ values, v.isUnknown = false := by
  rw [known, knownOnto_eq_some]
  constructor
  · rintro ⟨_, h, hknown, rfl⟩
    exact ⟨h, hknown⟩
  · rintro ⟨h, hknown⟩
    exact ⟨values, h, hknown, rfl⟩

end Evaluator

/-- A known value of a call of a primitive is what the primitive makes of known operands. -/
theorem primitiveCall_eq_ok {f : Primitive} {depth : Nat} (hform : SpecialForm.named? name = none)
    (hname : scope.defs.Lacks name) (hf : Primitive.named? name = some f)
    (h : evalBy p (depth + 1) (.list (.sym name :: args)) env scope s = (.ok v, t))
    (hv : v ≠ .unknown) :
    ∃ values, (evalBy p depth).operands args env scope s = (.ok values, t) ∧
      (∀ x ∈ values, x.isUnknown = false) ∧ f values = .ok v := by
  change callByName p (evalBy p depth) name args env scope s = _ at h
  rw [callByName_primitive hform hname hf] at h
  obtain ⟨r, u, hr, h⟩ := Eval.bind_eq_ok h
  match r with
  | none => exact (hv (Eval.pure_eq_ok h).1.symm).elim
  | some values =>
    obtain ⟨hvalues, hknown⟩ := Evaluator.known_eq_some.1 hr
    obtain ⟨hfv, rfl⟩ := callPrimitive_eq_ok h hv
    exact ⟨values, hvalues, hknown, hfv⟩

/-- A name that is neither a special form nor a macro, and stands for neither. -/
structure Definitions.Ordinary (defs : Definitions) (name : String) : Prop where
  not_form : SpecialForm.named? name = none
  not_macro : defs.macros.get? (defs.resolve name) = none
  resolved_not_form : SpecialForm.named? (defs.resolve name) = none

section Deeper

variable {depth depth' : Nat} {frame : FrameId} {inner : Scope} {bs : List (String × Value)}
  {body : List Value}

theorem bindInTurn_deeper
    (h : bindInTurn .strict (evalBy .strict depth) frame scope bs s = (.ok inner, t))
    (hd : depth ≤ depth') (fault : Fault) :
    bindInTurn { Policy.plain with tooDeep := fault }
      (evalBy { Policy.plain with tooDeep := fault } depth') frame scope bs s = (.ok inner, t) := by
  induction bs generalizing scope s with
  | nil => exact h
  | cons b rest ih =>
    obtain ⟨v, u, hv, h⟩ := Eval.bind_eq_ok h
    obtain ⟨x, u', hdefine, h⟩ := Eval.bind_eq_ok h
    exact Eval.bind_eq_ok_iff.2
      ⟨v, u, strict_deeper hv hd fault, Eval.bind_eq_ok_iff.2 ⟨x, u', hdefine, ih h⟩⟩

theorem body_deeper (h : (evalBy .strict depth).body body env scope s = (.ok v, t))
    (hd : depth ≤ depth') (fault : Fault) :
    (evalBy { Policy.plain with tooDeep := fault } depth').body body env scope s = (.ok v, t) := by
  induction body generalizing s with
  | nil => exact h
  | cons form rest ih =>
    cases rest with
    | nil => exact strict_deeper h hd fault
    | cons form' rest =>
      obtain ⟨x, u, hx, h⟩ := Eval.bind_eq_ok h
      refine Eval.bind_eq_ok_iff.2 ⟨x, u, strict_deeper hx hd fault, ?_⟩
      split
      · rwa [if_pos ‹_›] at h
      · rw [if_neg ‹_›] at h
        exact ih h

end Deeper

end PatternLint
