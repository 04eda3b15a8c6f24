import PatternLint.Proofs.FrameRules
import PatternLint.Proofs.SettlingApply

/-! Special forms without functions leave the frames around them as they are, where the evaluations
that they make do. -/

namespace PatternLint

open Evaluation

section Logic

variable {D : Drift Store} {w : Store} {α β : Type} {A : α → Prop} {V : Value → Prop}
  {Q : Store → α → Prop} {B : Store → β → Prop} {e : Eval Value}

namespace Drift.Goes

theorem give {a : α} (h : A a) : D.Goes w (fun _ => A) (pure a) :=
  .ret fun _ _ => h

theorem ofExcept {r : Except Fault α} (h : Returns A r) : D.Goes w (fun _ => A) (Eval.ofExcept r) :=
  .still fun _ _ _ => ⟨rfl, h⟩

/-- A result goes on, and a signal is replaced by what is given for it. -/
theorem withResult {r : Except Fault α} {k : α → Eval Value} {n : Eval Value} (h : Returns A r)
    (hk : ∀ a, A a → D.Goes w (fun _ => V) (k a)) (hn : D.Goes w (fun _ => V) n) :
    D.Goes w (fun _ => V) (Eval.withResult r k n) := by
  cases r with
  | ok a => exact hk a (h a rfl)
  | error f =>
    cases f with
    | signal => exact hn
    | _ => exact .fail

/-- Whatever the outcome, the store is left as the invariant has it. -/
theorem attempt {m : Eval α} (h : D.Goes w (fun _ => A) m) :
    D.Goes w (fun _ => Returns A) (Eval.attempt m) := by
  intro s hw hs
  obtain ⟨hlater, hfine, hA⟩ := h s hw hs
  refine ⟨hlater, hfine, ?_⟩
  rintro _ ⟨⟩
  exact hA

theorem orUnknown (h : D.Goes w (fun _ => V) e) (hv : V .unknown) :
    D.Goes w (fun _ => V) e.orUnknown := by
  intro s hw hs
  have hrun := h s hw hs
  unfold Eval.orUnknown
  split
  · rename_i t he
    rw [he] at hrun
    refine ⟨hrun.1, hrun.2.1, ?_⟩
    rintro _ ⟨⟩
    exact hv
  · exact hrun

/-- The default is to be one of the values that may come out. -/
theorem orDefault {v : Value} (h : D.Goes w (fun _ => V) e) (hv : V v) :
    D.Goes w (fun _ => V) (e.orDefault v) := by
  intro s hw hs
  have hrun := h s hw hs
  unfold Eval.orDefault
  split
  · rename_i t he
    rw [he] at hrun
    refine ⟨hrun.1, hrun.2.1, ?_⟩
    rintro _ ⟨⟩
    exact hv
  · exact hrun

/-- What follows a value that has to be known. -/
theorem known {k : Value → Eval β} {u : β} (h : D.Goes w (fun _ => V) e) (hu : ∀ t, B t u)
    (hk : ∀ t v, D.Later w t → V v → D.Goes t B (k v)) :
    D.Goes w B (e >>= fun v => if v.isUnknown then pure u else k v) :=
  .bind h fun t v ht hv => .ite (fun _ => .ret fun _ _ => hu _) fun _ => hk t v ht hv

end Drift.Goes

end Logic

namespace Region

variable (R : Region)

/-- Leaves the kept frames as they are, and has a value without functions. -/
abbrev Gives (w : Store) (e : Eval Value) : Prop :=
  R.evaluation.Goes w (fun _ v => v.Bare) e

/-- The same for several values, if there are any. -/
abbrev GivesAll (w : Store) (e : Eval (Option (List Value))) : Prop :=
  R.evaluation.Goes w (fun _ o => ∀ vs ∈ o, ∀ v ∈ vs, v.Bare) e

def Evaluates (ev : Evaluator) : Prop :=
  ∀ w expr env scope, expr.Bare → R.At w env scope → R.Gives w (ev expr env scope)

def Handles (handler : Handler) : Prop :=
  ∀ w args env scope, (∀ a ∈ args, a.Bare) → R.At w env scope → R.Gives w (handler args env scope)

variable {R} {ev : Evaluator} {w : Store} {env : FrameId} {scope : Scope} {args values : List Value}

theorem gives_unknown : R.Gives w (return .unknown) :=
  .give Value.bare_unknown

section Sequences

variable (hev : R.Evaluates ev)
include hev

/-- The value of a body is that of its last form. -/
theorem handles_body : R.Handles ev.body := by
  intro w args env scope ha hat
  induction args generalizing w with
  | nil => exact .give Value.bare_nil
  | cons form rest ih =>
    obtain ⟨hf, hr⟩ := List.forall_mem_cons.1 ha
    cases rest with
    | nil => exact hev w form env scope hf hat
    | cons _ _ =>
      refine .known (hev w form env scope hf hat) (fun _ => Value.bare_unknown) fun t _ ht _ => ?_
      exact ih t hr (hat.later ht)

theorem does_run (ha : ∀ a ∈ args, a.Bare) (hat : R.At w env scope) :
    R.evaluation.Does w (ev.run args env scope) := by
  induction args generalizing w with
  | nil => exact .done
  | cons form rest ih =>
    obtain ⟨hf, hr⟩ := List.forall_mem_cons.1 ha
    exact .known (hev w form env scope hf hat) (fun _ => trivial) fun t _ ht _ => ih hr
      (hat.later ht)

/-- Each operand has a value. -/
theorem goes_operands (ha : ∀ a ∈ args, a.Bare) (hat : R.At w env scope) :
    R.evaluation.Goes w (fun _ vs => vs.length = args.length ∧ ∀ v ∈ vs, v.Bare)
      (ev.operands args env scope) := by
  unfold Evaluator.operands
  induction args generalizing w with
  | nil => exact .give ⟨rfl, List.forall_mem_nil _⟩
  | cons form rest ih =>
    obtain ⟨hf, hr⟩ := List.forall_mem_cons.1 ha
    rw [List.mapM_cons]
    refine .bind (hev w form env scope hf hat) fun t v ht hv => ?_
    refine .bind (ih hr (hat.later ht)) fun u vs _ hvs => ?_
    exact .give ⟨congrArg (· + 1) hvs.1, List.forall_mem_cons.2 ⟨hv, hvs.2⟩⟩

/-- Operands are gathered as long as they are known. -/
theorem gives_knownOnto (hv : ∀ v ∈ values, v.Bare) (ha : ∀ a ∈ args, a.Bare)
    (hat : R.At w env scope) : R.GivesAll w (ev.knownOnto values args env scope) := by
  induction args generalizing w values with
  | nil =>
    refine .ret fun _ _ vs hvs v hv' => ?_
    cases hvs
    exact hv v (List.mem_reverse.1 hv')
  | cons form rest ih =>
    obtain ⟨hf, hr⟩ := List.forall_mem_cons.1 ha
    refine .known (hev w form env scope hf hat) (fun _ => nofun) fun t v ht hv' => ?_
    exact ih (List.forall_mem_cons.2 ⟨hv', hv⟩) hr (hat.later ht)

/-- What follows operands that have to be known. -/
theorem gives_known {k : List Value → Eval Value} (ha : ∀ a ∈ args, a.Bare) (hat : R.At w env scope)
    (hk : ∀ t vs, R.evaluation.Later w t → (∀ v ∈ vs, v.Bare) → R.Gives t (k vs)) :
    R.Gives w (ev.known args env scope >>= fun
      | none => return .unknown
      | some vs => k vs) := by
  refine .bind (gives_knownOnto hev (List.forall_mem_nil _) ha hat) fun t o ht ho => ?_
  cases o with
  | none => exact gives_unknown
  | some vs => exact hk t vs ht (ho vs rfl)

end Sequences

section Control

variable (hev : R.Evaluates ev)
include hev

theorem handles_ifThenElse : R.Handles (ifThenElse ev) := by
  intro w args env scope ha hat
  match args, ha with
  | [], _ => exact gives_unknown
  | [_], _ => exact gives_unknown
  | test :: yes :: no, ha =>
    obtain ⟨ht, ha⟩ := List.forall_mem_cons.1 ha
    obtain ⟨hy, hn⟩ := List.forall_mem_cons.1 ha
    refine .known (hev w test env scope ht hat) (fun _ => Value.bare_unknown) fun t v hw _ => ?_
    refine .ite (fun _ => ?_) fun _ => ?_
    · exact handles_body hev t no env scope hn (hat.later hw)
    · exact hev t yes env scope hy (hat.later hw)

theorem handles_when (holds : Bool) : R.Handles (when ev holds) := by
  intro w args env scope ha hat
  match args, ha with
  | [], _ => exact gives_unknown
  | test :: forms, ha =>
    obtain ⟨ht, hf⟩ := List.forall_mem_cons.1 ha
    refine .known (hev w test env scope ht hat) (fun _ => Value.bare_unknown) fun t v hw _ => ?_
    refine .ite (fun _ => .give Value.bare_nil) fun _ => ?_
    exact handles_body hev t forms env scope hf (hat.later hw)

theorem handles_andFrom {last : Value} (hl : last.Bare) : R.Handles (andFrom ev last) := by
  intro w args env scope ha hat
  induction args generalizing w last with
  | nil => exact .give hl
  | cons form rest ih =>
    obtain ⟨hf, hr⟩ := List.forall_mem_cons.1 ha
    refine .known (hev w form env scope hf hat) (fun _ => Value.bare_unknown) fun t v ht hv => ?_
    exact .ite (fun _ => .give Value.bare_nil) fun _ => ih hv t hr (hat.later ht)

theorem handles_or : R.Handles (or ev) := by
  intro w args env scope ha hat
  induction args generalizing w with
  | nil => exact .give Value.bare_nil
  | cons form rest ih =>
    obtain ⟨hf, hr⟩ := List.forall_mem_cons.1 ha
    refine .known (hev w form env scope hf hat) (fun _ => Value.bare_unknown) fun t v ht hv => ?_
    exact .ite (fun _ => ih t hr (hat.later ht)) fun _ => .give hv

theorem handles_valueOfNth (index : Nat) : R.Handles (valueOfNth ev index) := by
  intro w args env scope ha hat
  refine .ite (fun _ => gives_unknown) fun _ => gives_known hev ha hat fun t vs _ hvs => .give ?_
  cases hget : vs[index]? with
  | none => exact Value.bare_unknown
  | some v => exact hvs v (List.mem_of_getElem? hget)

/-- The induction is on the rounds that are left. -/
theorem gives_loop {test : Value} {forms : List Value} (ht : test.Bare)
    (hf : ∀ form ∈ forms, form.Bare) (hat : R.At w env scope) (fuel : Nat) :
    R.Gives w (loop ev test forms env scope fuel) := by
  induction fuel generalizing w with
  | zero => exact .give Value.bare_nil
  | succ fuel ih =>
    refine .known (hev w test env scope ht hat) (fun _ => Value.bare_unknown) fun t v hw _ => ?_
    have hat := hat.later hw
    refine .ite (fun _ => .give Value.bare_nil) fun _ =>
      .bind (does_run hev hf hat) fun u _ hu _ => ?_
    exact .ite (fun _ => ih (hat.later hu)) fun _ => gives_unknown

theorem handles_while : R.Handles («while» ev) := by
  intro w args env scope ha hat
  match args, ha with
  | [], _ => exact gives_unknown
  | test :: forms, ha =>
    obtain ⟨ht, hf⟩ := List.forall_mem_cons.1 ha
    exact gives_loop hev ht hf hat _

/-- The variable of a loop is bound before anything is evaluated in its frame. -/
theorem does_forEach {name : String} {values forms : List Value} {frame : FrameId}
    (hv : ∀ v ∈ values, v.Bare) (hf : ∀ form ∈ forms, form.Bare) (hframe : R.start ≤ frame)
    (hat : R.At w frame scope) :
    R.evaluation.Does w (forEach ev name values forms frame (scope.binding [name])) := by
  induction values generalizing w with
  | nil => exact .done
  | cons v rest ih =>
    obtain ⟨hv, hr⟩ := List.forall_mem_cons.1 hv
    refine .bind (define (not_kept_of_le hframe) hv) fun t _ ht hb => ?_
    have hat := hat.later ht
    refine .bind (does_run hev hf (hat.binding hframe (hb hat.lt))) fun u _ hu _ => ?_
    exact .ite (fun _ => ih hr (hat.later hu)) fun _ => .done

/-- The variable of the loop has a frame of its own, which may be changed. -/
theorem gives_loopOver {head : LoopHead} {values forms : List Value} {last : Value}
    (hh : ∀ form ∈ head.result, form.Bare) (hv : ∀ v ∈ values, v.Bare) (hl : last.Bare)
    (hf : ∀ form ∈ forms, form.Bare) (hat : R.At w env scope) :
    R.Gives w (loopOver ev head values last forms env scope) := by
  refine .bind (newFrame (List.forall_mem_nil _) ?_) fun t frame ht hframe => ?_
  · rintro _ ⟨⟩
    exact hat.sees
  have hin : R.At t frame scope :=
    (hat.later ht).inside hframe.1 hframe.2 rfl (List.forall_mem_nil _)
  refine .bind (does_forEach hev hv hf hframe.1 hin) fun u done hu _ => ?_
  refine .ite (fun _ => ?_) fun _ => gives_unknown
  refine .bind (define (not_kept_of_le hframe.1) hl) fun x _ hx hb => ?_
  have hin := (hin.later hu).later hx
  exact handles_body hev x head.result frame _ hh (hin.binding hframe.1 (hb hin.lt))

theorem handles_doList : R.Handles (doList ev) := by
  intro w args env scope ha hat
  match args, ha with
  | [], _ => exact gives_unknown
  | head :: forms, ha =>
    obtain ⟨hh, hf⟩ := List.forall_mem_cons.1 ha
    simp only [doList]
    cases hhead : LoopHead.of? head with
    | none => exact gives_unknown
    | some head =>
      obtain ⟨hrange, hresult⟩ := loopHead_code Value.bare_code hh hhead
      refine .known (hev w _ env scope hrange hat) (fun _ => Value.bare_unknown)
        fun t seq ht hseq => ?_
      refine .withResult hseq.asSequence (fun items hitems => ?_) gives_unknown
      exact gives_loopOver hev hresult hitems Value.bare_nil hf (hat.later ht)

theorem handles_doTimes : R.Handles (doTimes ev) := by
  intro w args env scope ha hat
  match args, ha with
  | [], _ => exact gives_unknown
  | head :: forms, ha =>
    obtain ⟨hh, hf⟩ := List.forall_mem_cons.1 ha
    simp only [doTimes]
    cases hhead : LoopHead.of? head with
    | none => exact gives_unknown
    | some head =>
      obtain ⟨hrange, hresult⟩ := loopHead_code Value.bare_code hh hhead
      refine .bind (hev w _ env scope hrange hat) fun t v ht _ => ?_
      cases v with
      | int count =>
        refine .ite (fun _ => gives_unknown) fun _ => ?_
        refine gives_loopOver hev hresult (fun v hv => ?_) Value.bare_int hf (hat.later ht)
        obtain ⟨i, -, rfl⟩ := List.mem_map.1 hv
        exact Value.bare_int
      | _ => exact gives_unknown

theorem handles_cond : R.Handles (cond ev) := by
  intro w clauses env scope ha hat
  induction clauses generalizing w with
  | nil => exact .give Value.bare_nil
  | cons clause rest ih =>
    obtain ⟨hc, hr⟩ := List.forall_mem_cons.1 ha
    match clause, hc with
    | .nil, _ =>
      simp only [Evaluation.cond]
      exact ih w hr hat
    | .list [], _ => exact gives_unknown
    | .list (test :: forms), hc =>
      obtain ⟨ht, hf⟩ := List.forall_mem_cons.1 (Value.bare_list.1 hc)
      refine .known (hev w test env scope ht hat) (fun _ => Value.bare_unknown) fun t v hw hv => ?_
      have hat := hat.later hw
      refine .ite (fun _ => ih t hr hat) fun _ => .ite (fun _ => .give hv) fun _ => ?_
      exact handles_body hev t forms env scope hf hat
    | .str _, _ | .int _, _ | .float _, _ | .sym _, _ | .dotted .., _ | .vec _, _ | .closure .., _
    | .unknown, _ => exact gives_unknown

end Control

end Region

end PatternLint
