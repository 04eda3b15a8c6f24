import PatternLint.Evaluation.Structure
import PatternLint.Proofs.RxFaults

/-! The faults that evaluations end in. Every form handles those that it names; a few go past all of
them. -/

namespace PatternLint

variable {α β : Type} {F : Fault → Prop} {s : Store}

namespace Eval

/-- Fails from a store, if at all, with a fault of `F`. -/
def FailsAt (F : Fault → Prop) (m : Eval α) (s : Store) : Prop :=
  FailsIn F (m s).1

namespace FailsAt

variable {m : Eval α} {k : α → Eval β} {n : Eval Value} {f : Fault} {a : α} {r : Except Fault α}

theorem mono {F' : Fault → Prop} (h : FailsAt F m s) (hF : ∀ f, F f → F' f) : FailsAt F' m s :=
  EndsIn.mono h (fun _ => id) hF

@[simp] theorem ret : FailsAt F (pure a) s :=
  True.intro

theorem fail (h : F f) : FailsAt F (throw f : Eval α) s :=
  h

/-- A computation without effects fails as it does by itself. -/
@[simp] theorem ofExcept_iff : FailsAt F (ofExcept r) s ↔ FailsIn F r :=
  Iff.rfl

/-- The second step starts in the store in which the first one ends. -/
@[simp] theorem bind_iff :
    FailsAt F (m >>= k) s ↔ FailsAt F m s ∧ ∀ a t, m s = (.ok a, t) → FailsAt F (k a) t := by
  simp only [FailsAt, bind_apply]
  rcases m s with ⟨f | a, t⟩
  · exact ⟨fun h => ⟨h, nofun⟩, And.left⟩
  · exact ⟨fun h => ⟨.ok, by rintro _ _ ⟨⟩; exact h⟩, fun h => h.2 a t rfl⟩

theorem bind (h : FailsAt F m s) (hk : ∀ a t, FailsAt F (k a) t) : FailsAt F (m >>= k) s :=
  bind_iff.2 ⟨h, fun a t _ => hk a t⟩

/-- Changing the result changes no fault. -/
@[simp] theorem map_iff {g : α → β} : FailsAt F (g <$> m) s ↔ FailsAt F m s := by
  rw [map_eq_pure_bind, bind_iff]
  exact ⟨And.left, fun h => ⟨h, fun _ _ _ => ret⟩⟩

@[simp] theorem ite_iff {p : Prop} [Decidable p] {m' : Eval α} :
    FailsAt F (if p then m else m') s ↔ (p → FailsAt F m s) ∧ (¬p → FailsAt F m' s) := by
  split <;> simp_all

/-- A result is continued, a signal is replaced, and any other fault goes on. -/
@[simp] theorem withResult_iff {j : α → Eval Value} :
    FailsAt F (withResult r j n) s ↔ FailsIn (fun f => F f ∨ ∃ c, f = .signal c) r ∧
      (∀ a, r = .ok a → FailsAt F (j a) s) ∧ ∀ c, r = .error (.signal c) → FailsAt F n s := by
  rcases r with ⟨⟩ | a
  case ok => simp [withResult]
  case error f =>
    cases f with
    | signal c => exact ⟨fun h => ⟨.inr ⟨c, rfl⟩, nofun, fun _ _ => h⟩, fun h => h.2.2 c rfl⟩
    | _ => exact ⟨fun h => ⟨.inl h, nofun, nofun⟩, fun h => h.1.resolve_right nofun⟩

/-- Only signals are turned into an unknown result. -/
@[simp] theorem orUnknown_iff :
    FailsAt F n.orUnknown s ↔ FailsAt (fun f => F f ∨ ∃ c, f = .signal c) n s := by
  unfold FailsAt orUnknown
  rcases n s with ⟨f | v, t⟩
  · cases f with
    | signal c => exact ⟨fun _ => .inr ⟨c, rfl⟩, fun _ => .ok⟩
    | _ => exact ⟨.inl, fun h => h.resolve_right nofun⟩
  · exact Iff.rfl

/-- Only running out of calls is turned into the default. -/
@[simp] theorem orDefault_iff {v : Value} :
    FailsAt F (n.orDefault v) s ↔ FailsAt (fun f => F f ∨ f = .tooDeep) n s := by
  unfold FailsAt orDefault
  rcases n s with ⟨f | v, t⟩
  · cases f with
    | tooDeep => exact ⟨fun _ => .inr rfl, fun _ => .ok⟩
    | _ => exact ⟨.inl, fun h => h.resolve_right nofun⟩
  · exact Iff.rfl

/-- Whatever the outcome, the continuation sees it as a value. -/
theorem attempt {j : Except Fault α → Eval β} (h : FailsAt F m s)
    (hok : ∀ a t, FailsAt F (j (.ok a)) t)
    (herr : ∀ f t, F f → FailsAt F (j (.error f)) t) : FailsAt F (m.attempt >>= j) s := by
  unfold FailsAt at h
  simp only [FailsAt, bind_apply, Eval.attempt]
  rcases hm : m s with ⟨f | a, t⟩
  · exact herr f t (h.of_error (congrArg Prod.fst hm))
  · exact hok a t

/-- Going through a list runs every step from the store that the last one left. -/
@[simp] theorem mapM {g : α → Eval β} {xs : List α} (h : ∀ x t, FailsAt F (g x) t) :
    FailsAt F (xs.mapM g) s := by
  induction xs generalizing s with
  | nil => exact ret
  | cons x xs ih => simp [List.mapM_cons, h, ih]

end FailsAt

section Store

variable {outer : Option FrameId} {bindings : List (String × Value)} {id : FrameId} {name : String}
  {v : Value} {formals : Value} {body : List Value} {g : Global}

/-- The store can always take a new frame. -/
@[simp] theorem newFrame_fails : FailsAt F (newFrame outer bindings) s := True.intro

@[simp] theorem define_fails : FailsAt F (define id name v) s := True.intro

@[simp] theorem lookup?_fails : FailsAt F (lookup? name id) s := True.intro

@[simp] theorem set_fails : FailsAt F (Eval.set id name v) s := by
  dsimp only [FailsAt, Eval.set]
  split <;> exact .ok

@[simp] theorem closure_fails : FailsAt F (closure formals body id) s := True.intro

@[simp] theorem global?_fails : FailsAt F (global? name) s := True.intro

@[simp] theorem putGlobal_fails : FailsAt F (putGlobal name g) s := True.intro

end Store

end Eval

open Eval (FailsAt)

/-- The faults that go past all handlers: of a class without digits in converting a text to a
number, of codes of no character in joining texts and in structured regexps, of complaints that
would show a numeral too wide to be written, of filling what is no list into a template, and of
building too long a list from results. -/
inductive Fault.Escapes : Fault → Prop
  | emptyDigitClass : Escapes .emptyDigitClass
  | notCharacter : Escapes .notCharacter
  | wideCharacter : Escapes .wideCharacter
  | wideResult : Escapes (.numeral .wideResult)
  | notList (v : Value) : Escapes (.signal (.wrongType "listp" v))
  | sequenceTooLong : Escapes (.signal .sequenceTooLong)

/-- What may be met inside of an evaluation. -/
def Fault.Passes (f : Fault) : Prop :=
  f.Escapes ∨ f = .tooDeep

instance : CoversText Fault.Passes where
  wideResult := .inl .wideResult
  notCharacter := .inl .notCharacter
  wideCharacter := .inl .wideCharacter

instance : Covers fun f => f.Passes ∨ ∃ c, f = .signal c where
  wideResult := .inl (.inl .wideResult)
  notCharacter := .inl (.inl .notCharacter)
  wideCharacter := .inl (.inl .wideCharacter)
  signal c := .inr ⟨c, rfl⟩

instance : CoversRx fun f => f.Passes ∨ ∃ g, f = .rx g where
  wideResult := .inl (.inl .wideResult)
  notCharacter := .inl (.inl .notCharacter)
  wideCharacter := .inl (.inl .wideCharacter)
  rx g := .inr ⟨g, rfl⟩

/-- Where a form asks for a list, the complaint is one that it passes on. -/
@[simp] theorem Value.asList_passes {v : Value} : FailsIn Fault.Passes v.asList := by
  have hfault : FailsIn Fault.Passes
      (.error (Fault.wrongType "listp" v) : Except Fault (List Value)) := by
    unfold Fault.wrongType Fault.about
    split
    · exact .inl (.notList v)
    · exact .inl .wideResult
  cases v <;> first | exact .ok | exact hfault

@[simp] theorem Value.ofItems_passes {items : List Value} :
    FailsIn Fault.Passes (Value.ofItems items) := by
  unfold Value.ofItems
  split
  · exact .inl .sequenceTooLong
  · exact .ok

/-- An evaluator whose faults are among those. -/
def Evaluator.Passes (ev : Evaluator) : Prop :=
  ∀ expr env scope s, FailsAt Fault.Passes (ev expr env scope) s

namespace Evaluation

section Policy

variable {ev : Evaluator} {name : String} {v formals : Value} {args : List Value} {env : FrameId}
  {frame : Option FrameId} {scope : Scope}

/-- Arguments are evaluated as any other expression. -/
@[simp] theorem plain_operand : Policy.plain.operand ev = ev :=
  rfl

@[simp] theorem plain_assign_fails : FailsAt F (Policy.plain.assign name v env scope) s := by
  simp [Policy.plain, assign]

/-- Binding parameters has no effect on the store and cannot fail. -/
@[simp] theorem plain_bind_fails : FailsAt F (Policy.plain.bind formals args) s :=
  .ret

/-- Finding the frame that a closure was made in cannot fail. -/
@[simp] theorem plain_home_fails : FailsAt F (Policy.plain.home frame scope) s :=
  .ret

end Policy

section Forms

variable {ev : Evaluator} (hev : ev.Passes) {args forms : List Value} {env : FrameId}
  {scope : Scope}
include hev

/-- The evaluator that a form is given passes the faults that the form does. -/
theorem ev_passes {expr : Value} : FailsAt Fault.Passes (ev expr env scope) s :=
  hev _ _ _ _

/-- A body is run form by form; its value is that of the last one. -/
@[simp] theorem body_passes : FailsAt Fault.Passes (ev.body forms env scope) s := by
  fun_induction Evaluator.body ev forms env scope generalizing s <;> simp_all [ev_passes]

theorem run_passes : FailsAt Fault.Passes (ev.run forms env scope) s := by
  induction forms generalizing s with
  | nil => exact .ret
  | cons form rest ih => simp [Evaluator.run, ev_passes hev, ih]

theorem operands_passes : FailsAt Fault.Passes (ev.operands args env scope) s := by
  simp [Evaluator.operands, ev_passes hev]

/-- Arguments are asked for up to the first unknown one. -/
theorem known_passes : FailsAt Fault.Passes (ev.known args env scope) s := by
  have honto : ∀ values s, FailsAt Fault.Passes (ev.knownOnto values args env scope) s := by
    induction args with
    | nil => exact fun _ _ => .ret
    | cons arg rest ih => simp [Evaluator.knownOnto, ev_passes hev, ih]
  exact honto _ _

/-- Only the branch that the condition selects is evaluated, and none if it is unknown. -/
theorem ifThenElse_passes : FailsAt Fault.Passes (ifThenElse ev args env scope) s := by
  unfold ifThenElse
  split <;> simp [ev_passes hev, body_passes hev]

theorem when_passes {holds : Bool} : FailsAt Fault.Passes (when ev holds args env scope) s := by
  unfold when
  split <;> simp [ev_passes hev, body_passes hev]

theorem cond_passes : FailsAt Fault.Passes (cond ev args env scope) s := by
  fun_induction cond ev args env scope generalizing s <;> simp_all [ev_passes, body_passes]

/-- Conjunctions stop at the first operand that decides them. -/
theorem and_passes : FailsAt Fault.Passes (and ev args env scope) s := by
  have hfrom : ∀ last s, FailsAt Fault.Passes (andFrom ev last args env scope) s := by
    induction args with
    | nil => exact fun _ _ => .ret
    | cons arg rest ih => simp [andFrom, ev_passes hev, ih]
  exact hfrom _ _

theorem or_passes : FailsAt Fault.Passes (or ev args env scope) s := by
  induction args generalizing s with
  | nil => exact .ret
  | cons arg rest ih => simp [or, ev_passes hev, ih]

theorem valueOfNth_passes {index : Nat} :
    FailsAt Fault.Passes (valueOfNth ev index args env scope) s := by
  unfold valueOfNth
  split
  · exact .ret
  · refine .bind (known_passes hev) fun values t => ?_
    split <;> exact .ret

/-- The number of rounds is bounded, and running out of them is not a fault. -/
theorem while_passes : FailsAt Fault.Passes («while» ev args env scope) s := by
  have hloop : ∀ test forms fuel s, FailsAt Fault.Passes (loop ev test forms env scope fuel) s := by
    intro test forms fuel
    induction fuel with
    | zero => exact fun _ => .ret
    | succ fuel ih => simp [loop, ev_passes hev, run_passes hev, ih]
  unfold «while»
  split
  · exact hloop _ _ _ _
  · exact .ret

/-- Each round binds the variable anew and runs the body. -/
theorem loopOver_passes {head : LoopHead} {values : List Value} {last : Value} :
    FailsAt Fault.Passes (loopOver ev head values last forms env scope) s := by
  have heach : ∀ name frame scope s,
      FailsAt Fault.Passes (forEach ev name values forms frame scope) s := by
    induction values with
    | nil => exact fun _ _ _ _ => .ret
    | cons v rest ih => simp [forEach, run_passes hev, ih]
  simp [loopOver, heach, body_passes hev]

/-- What is no sequence makes the loop unknown before its first round. -/
theorem doList_passes : FailsAt Fault.Passes (doList ev args env scope) s := by
  unfold doList
  split
  · exact .ret
  · split <;> simp [ev_passes hev, loopOver_passes hev]

theorem doTimes_passes : FailsAt Fault.Passes (doTimes ev args env scope) s := by
  unfold doTimes
  split
  · exact .ret
  · split
    · exact .ret
    · refine .bind (ev_passes hev) fun v t => ?_
      split
      · simp [loopOver_passes hev]
      · exact .ret

/-- All values are found before any variable is bound. -/
theorem letForm_passes : FailsAt Fault.Passes (letForm .plain ev args env scope) s := by
  unfold letForm
  split
  · exact .ret
  · split <;> simp [operands_passes hev, body_passes hev]

/-- Values are found one after another, each with the variables before it. -/
theorem letStarForm_passes : FailsAt Fault.Passes (letStarForm .plain ev args env scope) s := by
  have hturn : ∀ frame bindings scope s,
      FailsAt Fault.Passes (bindInTurn .plain ev frame scope bindings) s := by
    intro frame bindings
    induction bindings with
    | nil => exact fun _ _ => .ret
    | cons b rest ih => simp [bindInTurn, ev_passes hev, ih]
  unfold letStarForm
  split
  · exact .ret
  · split <;> simp [hturn, body_passes hev]

/-- Assignments are made pair by pair; what follows a malformed pair is left out. -/
theorem set_passes : FailsAt Fault.Passes (Evaluation.set .plain ev args env scope) s := by
  have hpairs : ∀ last s, FailsAt Fault.Passes (setPairs .plain ev last args env scope) s := by
    intro last
    fun_induction setPairs .plain ev last args env scope with
    | case1 last name form rest ih =>
      refine fun s => .bind (ev_passes hev) fun v t => .bind plain_assign_fails fun _ u => ih v u
    | _ => exact fun _ => .ret
  simp [Evaluation.set, hpairs]

theorem push_passes : FailsAt Fault.Passes (push .plain ev args env scope) s := by
  unfold push
  split <;> simp [ev_passes hev]

omit hev in
/-- Taking the first item off a value complains, with a signal, of what is no list. -/
theorem parts_fails {old : Value} :
    FailsIn (fun f => f.Passes ∨ ∃ c, f = .signal c) (parts old) := by
  simp [parts]

/-- The signal of taking a value apart is turned into an unknown result by the form itself. -/
theorem pop_passes : FailsAt Fault.Passes (pop .plain ev args env scope) s := by
  unfold pop
  split <;> simp [ev_passes hev, parts_fails]

end Forms

section Calls

/-- A call contains the ordinary faults of a primitive; only a class without digits gets through. -/
theorem callPrimitive_passes {f : Primitive} {args : List Value}
    (hf : FailsIn Fault.Ordinary (f args)) : FailsAt Fault.Passes (callPrimitive f args) s := by
  unfold callPrimitive
  split
  · exact .ret
  cases h : f args with
  | ok v => exact .ret
  | error e =>
    dsimp only
    split
    · exact .ret
    · rename_i he
      obtain rfl := (hf.of_error h).resolve_left he
      exact .fail (.inl .emptyDigitClass)

variable {ev : Evaluator} (hev : ev.Passes) {args forms : List Value} {env : FrameId}
  {scope : Scope}
include hev

/-- A call of a known function binds its parameters and runs its body. -/
theorem applyDefinition_passes {name : String} {d : Definition} :
    FailsAt Fault.Passes (applyDefinition .plain ev name d args scope) s := by
  simp [applyDefinition, body_passes hev]

/-- The expansion is evaluated in the frame of the call. -/
theorem expandMacro_passes {name : String} {d : Definition} :
    FailsAt Fault.Passes (expandMacro .plain ev name d args env scope) s := by
  simp [expandMacro, applyDefinition_passes hev, ev_passes hev]

theorem applyClosure_passes {formals : Value} {body : List Value} {frame : Option FrameId} :
    FailsAt Fault.Passes (applyClosure .plain ev formals body frame args scope) s := by
  simp [applyClosure, body_passes hev]

/-- Can be called without other faults than evaluations may end in. -/
def Callee.Passes (ev : Evaluator) (callee : Callee) : Prop :=
  ∀ args scope s, FailsAt Fault.Passes (callee.apply .plain ev args scope) s

/-- Whatever a value calls, its calls pass the faults that every form passes. -/
theorem callee?_passes {f : Value} {callee : Callee} (h : callee? scope f = some callee) :
    callee.Passes ev := by
  unfold callee? at h
  split at h
  · cases h
    exact fun _ _ _ => applyClosure_passes hev
  · cases h
    exact fun _ _ _ => applyClosure_passes hev
  · dsimp only at h
    split at h
    · cases h
      exact fun _ _ _ => applyDefinition_passes hev
    · obtain ⟨f, hf, rfl⟩ := Option.map_eq_some_iff.1 h
      exact fun _ _ _ => callPrimitive_passes (Primitive.named?_ordinary hf _)
  · cases h

end Calls

section Mapping

variable {ev : Evaluator} (hev : ev.Passes) {args : List Value} {env : FrameId} {scope : Scope}
  {callee : Callee}

/-- One call after the other, for the lists of arguments that a mapping goes through. -/
theorem results_passes (hc : callee.Passes ev) {calls : List (List Value)} :
    FailsAt Fault.Passes (results .plain ev callee calls scope) s := by
  have honto : ∀ done s,
      FailsAt Fault.Passes (resultsOnto .plain ev callee done scope calls) s := by
    induction calls with
    | nil => exact fun _ _ => .ret
    | cons args rest ih => simp [resultsOnto, hc _ _ _, ih]
  exact honto _ _

/-- Reducing calls with what is there so far and the next item. -/
theorem reduceFrom_passes (hc : callee.Passes ev) {acc : Value} {items : List Value} :
    FailsAt Fault.Passes (reduceFrom .plain ev callee scope acc items) s := by
  induction items generalizing acc s with
  | nil => exact .ret
  | cons v rest ih => simp [reduceFrom, hc _ _ _, ih]

theorem reduceItems_passes (hc : callee.Passes ev) {items : List Value} :
    FailsAt Fault.Passes (reduceItems .plain ev callee scope items) s := by
  cases items with
  | nil => exact hc _ _ _
  | cons v rest => exact reduceFrom_passes hc

/-- Combining the results of a mapping may fail like the primitive that does it. -/
theorem collect_fails {c : Collection} {results : List Value} :
    FailsIn (fun f => f.Passes ∨ ∃ c, f = .signal c) (c.collect args results) := by
  cases c <;> simp [Collection.collect]

include hev

/-- What a form calls can be called. -/
theorem call?_passes {k : Option (Callee × List Value) → Eval Value}
    (hnone : ∀ t, FailsAt Fault.Passes (k none) t)
    (hsome : ∀ callee values t, callee.Passes ev →
      FailsAt Fault.Passes (k (some (callee, values))) t) :
    FailsAt Fault.Passes (call? ev args env scope >>= k) s := by
  unfold call?
  rw [bind_assoc]
  refine .bind (known_passes hev) fun values t => ?_
  split
  · rename_i f rest
    cases hf : callee? scope f with
    | none => exact hnone t
    | some callee => exact hsome callee rest t (callee?_passes hev hf)
  · exact hnone t

/-- The signal of the combining step is contained; the fault of a bad character is not. -/
theorem mapOver_passes {c : Collection} :
    FailsAt Fault.Passes (mapOver .plain ev c args env scope) s := by
  unfold mapOver
  split
  · exact .ret
  refine call?_passes hev (fun _ => .ret) fun callee values t hc => ?_
  cases values with
  | nil => exact .ret
  | cons seq more =>
    simp only [FailsAt.withResult_iff, Value.asSequence_failsIn, true_and]
    refine ⟨fun items _ => .bind (results_passes hc) fun found u => ?_, fun _ _ => .ret⟩
    split
    · exact .ret
    · simp [collect_fails]

theorem mapTogether_passes : FailsAt Fault.Passes (mapTogether .plain ev args env scope) s := by
  unfold mapTogether
  split
  · exact .ret
  refine call?_passes hev (fun _ => .ret) fun callee values t hc => ?_
  simp only [FailsAt.withResult_iff, FailsIn.mapM, Value.asSequence_failsIn, implies_true, true_and]
  refine ⟨fun items _ => .bind (results_passes hc) fun found u => ?_, fun _ _ => .ret⟩
  split <;> simp

theorem funcall_passes : FailsAt Fault.Passes (funcall .plain ev args env scope) s :=
  call?_passes hev (fun _ => .ret) fun _ _ _ hc => hc _ _ _

theorem applyForm_passes : FailsAt Fault.Passes (applyForm .plain ev args env scope) s := by
  unfold applyForm
  split
  · exact .ret
  refine call?_passes hev (fun _ => .ret) fun callee values t hc => ?_
  simp [hc _ _ _]

theorem reduce_passes : FailsAt Fault.Passes (reduce .plain ev args env scope) s := by
  unfold reduce
  split
  · exact .ret
  refine call?_passes hev (fun _ => .ret) fun callee values t hc => ?_
  cases values with
  | nil => exact .ret
  | cons seq more =>
    simp only [FailsAt.withResult_iff, Value.asSequence_failsIn, true_and]
    refine ⟨fun items _ => ?_, fun _ _ => .ret⟩
    split <;> simp [reduceItems_passes hc]

end Mapping

section Templates

variable {ev : Evaluator} {args : List Value} {env : FrameId} {scope : Scope}

mutual

/-- Templates are expanded along their tree; the evaluator is called at its holes. -/
theorem expand_passes (hev : ev.Passes) (template : Value) (s : Store) :
    FailsAt Fault.Passes (expand ev env scope template) s := by
  rw [expand.eq_def]
  split
  · rename_i items
    exact expandList_passes hev items s
  · rename_i items
    refine .bind (expandList_passes hev items s) fun v t => ?_
    simp
  · rename_i items tail
    refine .bind (expandList_passes hev items s) fun head t =>
      .bind (expand_passes hev tail t) fun rest u => ?_
    simp
  · exact .ret

theorem expandList_passes (hev : ev.Passes) (items : List Value) (s : Store) :
    FailsAt Fault.Passes (expandList ev env scope items) s := by
  rw [expandList.eq_def]
  split
  · exact .ret
  · exact .ret
  · exact expandItems_passes hev [] items s

/-- The value at a splice is to be a list, or the complaint goes through. -/
theorem expandItems_passes (hev : ev.Passes) (out items : List Value) (s : Store) :
    FailsAt Fault.Passes (expandItems ev env scope out items) s := by
  rw [expandItems.eq_def]
  split
  · exact .ret
  · simp [ev_passes hev]
  · rename_i form rest
    refine .bind (ev_passes hev) fun v t => ?_
    split
    · exact .ret
    · simp only [FailsAt.withResult_iff, Value.asList_failsIn, true_and]
      exact ⟨fun more _ => expandItems_passes hev _ rest t, fun _ _ => .ret⟩
  · rename_i item rest _ _
    refine .bind (expand_passes hev item s) fun v t => ?_
    split
    · exact .ret
    · exact expandItems_passes hev _ rest t

end

theorem template_passes (hev : ev.Passes) :
    FailsAt Fault.Passes (template ev args env scope) s := by
  unfold template
  split
  · simp [expand_passes hev]
  · exact .ret

end Templates

section StructuredRegexps

variable {ev : Evaluator} {args : List Value} {env : FrameId} {scope : Scope}

mutual

/-- Clauses of a structured regexp are resolved along their tree. -/
theorem resolveClauses_passes (hev : ev.Passes) (form : Value) (s : Store) :
    FailsAt Fault.Passes (resolveClauses ev env scope form) s := by
  rw [resolveClauses.eq_def]
  split
  · rename_i head args
    have hparts : ∀ t, FailsAt Fault.Passes (do
        match ← resolveAll ev env scope [] args with
        | none => return .unknown
        | some args => return Value.list (head :: args)) t := by
      intro t
      refine .bind (resolveAll_passes hev [] args t) fun args u => ?_
      split <;> exact .ret
    split
    · exact .bind (ev_passes hev) fun v t => .ret
    · exact .ret
    · split
      · exact .ret
      split
      · split
        · refine .bind (ev_passes hev) fun v t => ?_
          split <;> exact .ret
        · exact .ret
      · exact hparts s
    · exact hparts s
  · exact .ret

theorem resolveAll_passes (hev : ev.Passes) (out forms : List Value) (s : Store) :
    FailsAt Fault.Passes (resolveAll ev env scope out forms) s := by
  rw [resolveAll.eq_def]
  split
  · exact .ret
  · rename_i form rest
    refine .bind (resolveClauses_passes hev form s) fun v t => ?_
    split
    · exact .ret
    · exact resolveAll_passes hev _ rest t

end

/-- A structured regexp that cannot be written is unknown as a value. -/
theorem written_passes {r : Except Fault String}
    (h : FailsIn (fun f => f.Passes ∨ ∃ g, f = .rx g) r) : FailsAt Fault.Passes (written r) s := by
  unfold written
  split
  · exact .ret
  · exact .ret
  · rename_i f hf
    exact .fail (Or.resolve_right h fun ⟨g, hg⟩ => hf g hg)

theorem rx_passes (hev : ev.Passes) : FailsAt Fault.Passes (rx ev args env scope) s := by
  refine .bind (resolveAll_passes hev [] args s) fun forms t => ?_
  split
  · exact .ret
  · exact written_passes (by simp [Rx.ofForms, Rx.writeAll_failsIn])

theorem rxToString_passes (hev : ev.Passes) :
    FailsAt Fault.Passes (rxToString ev args env scope) s := by
  unfold rxToString
  split
  · exact .ret
  refine .bind (operands_passes hev) fun values t => ?_
  split
  · split
    · exact .ret
    · refine .bind (resolveClauses_passes hev _ t) fun form u => ?_
      split
      · exact .ret
      · exact written_passes (by simp [Rx.ofForm, Rx.write_failsIn])
  · exact .ret

end StructuredRegexps

section Steps

variable {ev : Evaluator} (hev : ev.Passes) {args : List Value} {env : FrameId} {scope : Scope}
include hev

/-- Every special form passes on the faults of its parts and adds escaping ones at most. -/
theorem specialForm_passes (form : SpecialForm) :
    FailsAt Fault.Passes (form.run .plain ev args env scope) s := by
  cases form with
  | quote =>
    dsimp only [SpecialForm.run, quote]
    split <;> exact .ret
  | function =>
    dsimp only [SpecialForm.run, function]
    split
    · exact Eval.closure_fails
    · exact .ret
    · exact .ret
  | lambda =>
    dsimp only [SpecialForm.run, lambda]
    split
    · exact Eval.closure_fails
    · exact .ret
  | template => exact template_passes hev
  | ifThenElse => exact ifThenElse_passes hev
  | cond => exact cond_passes hev
  | when holds => exact when_passes hev
  | and => exact and_passes hev
  | or => exact or_passes hev
  | progn => exact body_passes hev
  | valueOfNth index => exact valueOfNth_passes hev
  | letForm => exact letForm_passes hev
  | letStarForm => exact letStarForm_passes hev
  | set => exact set_passes hev
  | push => exact push_passes hev
  | pop => exact pop_passes hev
  | «while» => exact while_passes hev
  | doList => exact doList_passes hev
  | doTimes => exact doTimes_passes hev
  | mapOver c => exact mapOver_passes hev
  | mapTogether => exact mapTogether_passes hev
  | reduce => exact reduce_passes hev
  | apply => exact applyForm_passes hev
  | funcall => exact funcall_passes hev
  | rx => exact rx_passes hev
  | rxToString => exact rxToString_passes hev

/-- A value is found unless there is no room to begin. -/
theorem findValue_passes {expr : Value} {root : FrameId} :
    FailsAt Fault.Passes (findValue .plain ev expr root scope) s :=
  .bind (ev_passes hev) fun _ _ =>
    Eval.FailsAt.orDefault_iff.2 ((ev_passes hev).mono fun _ => .inl)

/-- The fault of a first use goes through, and the variable waits as it did before. -/
theorem globalValue_passes {name : String} :
    FailsAt Fault.Passes (globalValue .plain ev name scope) s := by
  unfold globalValue
  refine .bind Eval.global?_fails fun g t => ?_
  split
  iterate 3 exact .ret
  rename_i expr
  refine .bind Eval.putGlobal_fails fun _ t => .bind Eval.newFrame_fails fun root u => ?_
  refine .attempt (findValue_passes hev) (fun v t => by simp) fun f t hf => ?_
  exact .bind Eval.putGlobal_fails fun _ _ => .fail hf

theorem variableValue_passes {name : String} :
    FailsAt Fault.Passes (variableValue .plain ev name env scope) s := by
  unfold variableValue
  split
  · exact .ret
  split
  · exact .ret
  refine .bind Eval.lookup?_fails fun v t => ?_
  split
  · exact .ret
  · exact globalValue_passes hev

/-- The head is a special form, a definition, a form behind an alias, or a primitive, in this
order. -/
theorem callByName_passes {head : String} :
    FailsAt Fault.Passes (callByName .plain ev head args env scope) s := by
  unfold callByName
  split
  · exact specialForm_passes hev _
  dsimp only
  split
  · exact expandMacro_passes hev
  · exact .bind (operands_passes hev) fun _ _ => applyDefinition_passes hev
  · split
    · exact specialForm_passes hev _
    · exact .ret
    · rename_i f _ hf
      refine .bind (known_passes hev) fun values t => ?_
      split
      · exact .ret
      · exact callPrimitive_passes (Primitive.named?_ordinary hf _)

/-- One level of evaluation, by the kind of the expression. -/
theorem step_passes : Evaluator.Passes (step .plain ev) := by
  intro expr env scope s
  unfold step
  split
  · exact variableValue_passes hev
  · exact .ret
  · exact callByName_passes hev
  · exact .bind (operands_passes hev) fun _ _ => applyClosure_passes hev
  · exact .ret
  · exact .ret

end Steps

/-- Induction on the depth: at none, evaluation ends in the fault of being too deep. -/
theorem evalBy_passes (depth : Nat) : Evaluator.Passes (evalBy .plain depth) := by
  induction depth with
  | zero => exact fun _ _ _ _ => .fail (.inr rfl)
  | succ depth ih => exact step_passes ih

section Structure

variable {ev : Evaluator} (hev : ev.Passes) {env : FrameId} {scope : Scope}
include hev

/-- A construction evaluates its parts as lists and puts them together. -/
theorem build_passes {c : Construction} : FailsAt Fault.Passes (c.build ev env scope) s := by
  cases c with
  | list parts => simp [Construction.build, operands_passes hev]
  | cons a b => simp [Construction.build, ev_passes hev]
  | append parts =>
    have hparts : FailsAt (fun f => f.Passes ∨ ∃ c, f = .signal c)
        (ev.operands parts env scope) s :=
      (operands_passes hev).mono fun _ => .inl
    simp [Construction.build, hparts]
  | same part => exact ev_passes hev
  | template part => simp [Construction.build, expand_passes hev]

end Structure

/-- The same for list structure, whose two bounds go down at different paces. -/
theorem evalStructureWithin_passes (depth calls : Nat) :
    Evaluator.Passes (evalStructureWithin .plain depth calls) := by
  induction depth generalizing calls with
  | zero => exact fun _ _ _ _ => .fail (.inr rfl)
  | succ depth ih =>
    cases calls with
    | succ calls => exact ih calls
    | zero =>
      intro expr env scope s
      dsimp only [evalStructureWithin]
      split
      · exact build_passes (ih _)
      · exact .bind (evalBy_passes _ _ _ _ _) fun _ _ => .ret

/-- An evaluation as a whole handles being too deep, so that only escaping faults are left. -/
theorem within_escapes {ev : Evaluator} (hev : ev.Passes) {default expr : Value}
    {env : Option FrameId} {mutables : List String} {defs : Definitions} {loopLimit : Nat} :
    FailsAt Fault.Escapes (within ev default expr env mutables defs loopLimit) s :=
  .bind Eval.newFrame_fails fun _ _ => Eval.FailsAt.orDefault_iff.2 (hev _ _ _ _)

/-- Has a value whenever it ends in a result. -/
def Evaluator.Knows (ev : Evaluator) : Prop :=
  ∀ expr env scope, (ev expr env scope).Always (· ≠ .unknown) fun _ => True

theorem ofList_ne_unknown (items : List Value) : Value.ofList items ≠ .unknown := by
  cases items <;> exact nofun

theorem orNil_ne_unknown (v : Value) : orNil v ≠ .unknown := by
  cases v <;> exact nofun

theorem prepend_ne_unknown {v : Value} (h : v ≠ .unknown) (items : List Value) :
    Value.prepend items v ≠ .unknown := by
  unfold Value.prepend
  split
  · exact ofList_ne_unknown _
  · exact ofList_ne_unknown _
  · split
    · exact ofList_ne_unknown _
    · simp
  · split
    · exact h
    · simp

/-- A list that is put together here is known as a list even if its parts are not. -/
theorem build_knows {ev : Evaluator} (hev : Evaluator.Knows ev) {c : Construction} {env : FrameId}
    {scope : Scope} : (c.build ev env scope).Always (· ≠ .unknown) fun _ => True := by
  cases c with
  | list parts =>
    refine (Eval.Always.trivial _).bind fun values _ => .ofExcept ?_
    unfold Value.ofItems
    split
    · exact True.intro
    · exact ofList_ne_unknown values
  | cons a b =>
    refine (hev _ _ _).bind fun head _ => (hev _ _ _).bind fun tail htail => .ret ?_
    exact prepend_ne_unknown htail _
  | append parts => exact (Eval.Always.trivial _).bind fun v _ => .ret (orNil_ne_unknown v)
  | same part => exact hev _ _ _
  | template part => exact (Eval.Always.trivial _).bind fun v _ => .ret (orNil_ne_unknown v)

/-- Structural evaluation has a value for unknown parts. -/
theorem evalStructureWithin_knows (depth calls : Nat) :
    Evaluator.Knows (evalStructureWithin .plain depth calls) := by
  induction depth generalizing calls with
  | zero => exact fun _ _ _ => .fail True.intro
  | succ depth ih =>
    cases calls with
    | succ calls => exact ih calls
    | zero =>
      intro expr env scope
      dsimp only [evalStructureWithin]
      split
      · exact build_knows (ih _)
      · exact (Eval.Always.trivial _).bind fun v _ => .ret (orNil_ne_unknown v)

end Evaluation

/-- Evaluations end in a value, which structural ones know, unless a fault escapes. -/
theorem evaluation_ends (expr : Value) (env : Option FrameId) (mutables : List String)
    (defs : Definitions) (loopLimit : Nat) (s : Store) :
    EndsIn (fun _ => True) Fault.Escapes (evaluate expr env mutables defs loopLimit s).1 ∧
      EndsIn (· ≠ .unknown) Fault.Escapes (evaluateList expr env mutables defs loopLimit s).1 := by
  refine ⟨Evaluation.within_escapes (Evaluation.evalBy_passes _), ?_⟩
  have hfails : EndsIn _ Fault.Escapes (evaluateList expr env mutables defs loopLimit s).1 :=
    Evaluation.within_escapes (Evaluation.evalStructureWithin_passes _ _)
  have hknows : (evaluateList expr env mutables defs loopLimit).Always
      (· ≠ .unknown) fun _ => True :=
    (Eval.Always.trivial _).bind fun root _ =>
      .orDefault (Evaluation.evalStructureWithin_knows _ _ _ _ _) nofun
  exact (hfails.and (hknows s)).mono (fun _ => And.right) fun _ => And.left

/-- The form `(mapconcat 'identity '((-1)))`, which joins what holds no character. -/
def badJoin : Value :=
  .list [.sym "mapconcat", .list [.sym "quote", .sym "identity"],
    .list [.sym "quote", .list [.list [.int (-1)]]]]

/-- A call that combines codes which are no characters ends in a fault, not in a value. -/
theorem badJoin_escapes :
    ¬∀ (expr : Value) (env : Option FrameId) (mutables : List String) (defs : Definitions)
      (loopLimit : Nat) (s : Store),
      ∃ v t, evaluate expr env mutables defs loopLimit s = (.ok v, t) := by
  intro h
  obtain ⟨v, t, hrun⟩ := h badJoin none [] .empty 1000 .empty
  have hfails : (evaluate badJoin none [] .empty 1000 .empty).1.isOk = false := by
    decide +kernel
  rw [hrun] at hfails
  cases hfails

end PatternLint
