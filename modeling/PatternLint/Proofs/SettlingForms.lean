import PatternLint.Proofs.Settling

/-! Special forms settle where the evaluations that they make do. -/

namespace PatternLint

open Evaluation

/-- Values that may be evaluated as code, and with them their parts. -/
structure Code (m : Material) (C : Value → Prop) : Prop where
  madeOf : ∀ v, C v → v.MadeOf m
  nil : ∀ v, C v → C .nil
  list : ∀ items, C (.list items) → ∀ v ∈ items, C v
  vec : ∀ items, C (.vec items) → ∀ v ∈ items, C v
  dotted : ∀ items tail, C (.dotted items tail) → (∀ v ∈ items, C v) ∧ C tail

/-- A scope with given definitions, inside of those of them whose names are in `E`. -/
structure Inside (defs : Definitions) (E : List String) (scope : Scope) : Prop where
  defs : scope.defs = defs
  expanding : scope.expanding = E

theorem Inside.binding {defs : Definitions} {E : List String} {scope : Scope}
    (h : Inside defs E scope) (names : List String) : Inside defs E (scope.binding names) :=
  ⟨h.defs, h.expanding⟩

/-- The plain policy with another fault for what is too deep, and another way to bind parameters. -/
def Policy.variant (fault : Fault) (bind : Value → List Value → Eval (List (String × Value))) :
    Policy :=
  { Policy.plain with tooDeep := fault, bind := bind }

section Logic

variable {ι : Type} (F : Filter ι) (m : Material) (defs : Definitions) (P : Set String)
  (E : List String) (C : Value → Prop)

/-- Parameters are bound to values that may be unknown as a whole only. -/
def Binds (bind : Value → List Value → Eval (List (String × Value))) : Prop :=
  ∀ P formals args, formals.MadeOf m → (∀ a ∈ args, a.Tracked m) →
    SettlesIn F m P (fun bs => ∀ b ∈ bs, b.2.Tracked m) fun _ => bind formals args

/-- Evaluates code of one kind in scopes of one kind. -/
def Steady (ev : ι → Evaluator) : Prop :=
  ∀ expr env scope, C expr → Inside defs E scope →
    SettlesIn F m P (Value.Tracked m) fun i => ev i expr env scope

/-- Handles operands of one kind in scopes of one kind. -/
def Handles (handler : ι → Handler) : Prop :=
  ∀ args env scope, (∀ a ∈ args, C a) → Inside defs E scope →
    SettlesIn F m P (Value.Tracked m) fun i => handler i args env scope

/-- What a form needs of the evaluations that it makes. They are of its own parts, of definitions
that it is not inside of, of the variables in `P` and, if values may be run, of any value. -/
structure Supports (ev : ι → Evaluator) : Prop where
  code : Code m C
  parts : Steady F m defs P E C ev
  inner : ∀ name d, name ∉ E →
    (defs.functions.get? name = some d ∨ defs.macros.get? name = some d) →
    Steady F m defs P (name :: E) (Value.MadeOf m) ev
  global : ∀ name ∈ P, Steady F m defs (P \ {name}) [] (Value.MadeOf m) ev
  runs : m.runs → Steady F m defs P E (Value.MadeOf m) ev

end Logic

variable {ι : Type} {F : Filter ι} {m : Material} {defs : Definitions} {P : Set String}
  {E : List String} {C : Value → Prop} {ev : ι → Evaluator} {env : FrameId} {scope : Scope}
  {args : List Value}

section Sequences

theorem handles_body (hev : Steady F m defs P E C ev) :
    Handles F m defs P E C fun i => (ev i).body := by
  intro args env scope ha hat
  induction args with
  | nil => exact .ret (.inr .nil)
  | cons form rest ih =>
    obtain ⟨hf, hr⟩ := List.forall_mem_cons.1 ha
    cases rest with
    | nil => exact hev _ _ _ hf hat
    | cons _ _ => exact (hev _ _ _ hf hat).known .unknown fun _ _ => ih hr

theorem keeps_run (hev : Steady F m defs P E C ev) (ha : ∀ a ∈ args, C a)
    (hat : Inside defs E scope) :
    SettlesIn F m P (fun _ => True) fun i => (ev i).run args env scope := by
  induction args with
  | nil => exact .ret True.intro
  | cons form rest ih =>
    obtain ⟨hf, hr⟩ := List.forall_mem_cons.1 ha
    exact (hev _ _ _ hf hat).known True.intro fun _ _ => ih hr

theorem keeps_mapM {e : ι → Value → Eval Value} {Q : Value → Prop}
    (h : ∀ a ∈ args, SettlesIn F m P Q fun i => e i a) :
    SettlesIn F m P (fun vs => ∀ v ∈ vs, Q v) fun i => args.mapM (e i) := by
  induction args with
  | nil => exact .ret (List.forall_mem_nil _)
  | cons form rest ih =>
    obtain ⟨hf, hr⟩ := List.forall_mem_cons.1 h
    simp only [List.mapM_cons]
    refine hf.bind fun v hv => (ih hr).bind fun vs hvs => ?_
    exact .ret (List.forall_mem_cons.2 ⟨hv, hvs⟩)

theorem keeps_operands (hev : Steady F m defs P E C ev) (ha : ∀ a ∈ args, C a)
    (hat : Inside defs E scope) :
    SettlesIn F m P (fun vs => ∀ v ∈ vs, v.Tracked m) fun i => (ev i).operands args env scope :=
  keeps_mapM fun a h => hev a _ _ (ha a h) hat

theorem keeps_knownOnto {values : List Value} (hev : Steady F m defs P E C ev)
    (hv : ∀ v ∈ values, v.MadeOf m) (ha : ∀ a ∈ args, C a) (hat : Inside defs E scope) :
    SettlesIn F m P (fun o => ∀ vs ∈ o, ∀ v ∈ vs, v.MadeOf m)
      fun i => (ev i).knownOnto values args env scope := by
  induction args generalizing values with
  | nil =>
    refine .ret fun vs hvs v hv' => ?_
    cases hvs
    exact hv v (List.mem_reverse.1 hv')
  | cons form rest ih =>
    obtain ⟨hf, hr⟩ := List.forall_mem_cons.1 ha
    refine (hev _ _ _ hf hat).known nofun fun v hv' => ?_
    exact ih (List.forall_mem_cons.2 ⟨hv', hv⟩) hr

theorem keeps_known (hev : Steady F m defs P E C ev) (ha : ∀ a ∈ args, C a)
    (hat : Inside defs E scope) :
    SettlesIn F m P (fun o => ∀ vs ∈ o, ∀ v ∈ vs, v.MadeOf m)
      fun i => (ev i).known args env scope :=
  keeps_knownOnto hev (List.forall_mem_nil _) ha hat

/-- What follows operands that have to be known. -/
theorem keeps_ofKnown {k : ι → List Value → Eval Value} (hev : Steady F m defs P E C ev)
    (ha : ∀ a ∈ args, C a) (hat : Inside defs E scope)
    (hk : ∀ vs, (∀ v ∈ vs, v.MadeOf m) → SettlesIn F m P (Value.Tracked m) fun i => k i vs) :
    SettlesIn F m P (Value.Tracked m) fun i => (ev i).known args env scope >>= fun
      | none => return .unknown
      | some vs => k i vs := by
  refine (keeps_known hev ha hat).bind fun o ho => ?_
  cases o with
  | none => exact .ret .unknown
  | some vs => exact hk vs (ho vs rfl)

end Sequences

section Control

theorem loopHead_code (hC : Code m C) {v : Value} {head : LoopHead} (hv : C v)
    (h : LoopHead.of? v = some head) : C head.range ∧ ∀ form ∈ head.result, C form := by
  unfold LoopHead.of? at h
  split at h
  · cases h
    exact ⟨hC.list _ hv _ (by simp), List.forall_mem_nil _⟩
  · cases h
    exact ⟨hC.list _ hv _ (by simp), List.forall_mem_singleton.2 (hC.list _ hv _ (by simp))⟩
  · cases h

variable (hC : Code m C) (hev : Steady F m defs P E C ev)
include hev

theorem handles_ifThenElse : Handles F m defs P E C fun i => ifThenElse (ev i) := by
  intro args env scope ha hat
  match args, ha with
  | [], _ => exact .ret .unknown
  | [_], _ => exact .ret .unknown
  | test :: yes :: no, ha =>
    obtain ⟨ht, ha⟩ := List.forall_mem_cons.1 ha
    obtain ⟨hy, hn⟩ := List.forall_mem_cons.1 ha
    refine (hev _ _ _ ht hat).known .unknown fun v _ => .ite (fun _ => ?_) fun _ => ?_
    · exact handles_body hev _ _ _ hn hat
    · exact hev _ _ _ hy hat

theorem handles_when (holds : Bool) : Handles F m defs P E C fun i => when (ev i) holds := by
  intro args env scope ha hat
  match args, ha with
  | [], _ => exact .ret .unknown
  | test :: forms, ha =>
    obtain ⟨ht, hf⟩ := List.forall_mem_cons.1 ha
    refine (hev _ _ _ ht hat).known .unknown fun v _ => .ite (fun _ => .ret (.inr .nil)) fun _ => ?_
    exact handles_body hev _ _ _ hf hat

theorem handles_andFrom {last : Value} (hl : last.MadeOf m) :
    Handles F m defs P E C fun i => andFrom (ev i) last := by
  intro args env scope ha hat
  induction args generalizing last with
  | nil => exact .ret (.inr hl)
  | cons form rest ih =>
    obtain ⟨hf, hr⟩ := List.forall_mem_cons.1 ha
    refine (hev _ _ _ hf hat).known .unknown fun v hv => ?_
    exact .ite (fun _ => .ret (.inr .nil)) fun _ => ih hv hr

theorem handles_or : Handles F m defs P E C fun i => or (ev i) := by
  intro args env scope ha hat
  induction args with
  | nil => exact .ret (.inr .nil)
  | cons form rest ih =>
    obtain ⟨hf, hr⟩ := List.forall_mem_cons.1 ha
    refine (hev _ _ _ hf hat).known .unknown fun v hv => ?_
    exact .ite (fun _ => ih hr) fun _ => .ret (.inr hv)

theorem handles_valueOfNth (index : Nat) :
    Handles F m defs P E C fun i => valueOfNth (ev i) index := by
  intro args env scope ha hat
  refine .ite (fun _ => .ret .unknown) fun _ => keeps_ofKnown hev ha hat fun vs hvs => .ret ?_
  rcases hget : vs[index]? with _ | v
  · exact .inl rfl
  · exact .inr (hvs v (List.mem_of_getElem? hget))

theorem keeps_loop {test : Value} {forms : List Value} (ht : C test) (hf : ∀ form ∈ forms, C form)
    (hat : Inside defs E scope) (fuel : Nat) :
    SettlesIn F m P (Value.Tracked m) fun i => loop (ev i) test forms env scope fuel := by
  induction fuel with
  | zero => exact .ret (.inr .nil)
  | succ fuel ih =>
    refine (hev _ _ _ ht hat).known .unknown fun v _ => .ite (fun _ => .ret (.inr .nil)) fun _ => ?_
    exact (keeps_run hev hf hat).bind fun _ _ => .ite (fun _ => ih) fun _ => .ret .unknown

theorem handles_while : Handles F m defs P E C fun i => «while» (ev i) := by
  intro args env scope ha hat
  match args, ha with
  | [], _ => exact .ret .unknown
  | test :: forms, ha =>
    obtain ⟨ht, hf⟩ := List.forall_mem_cons.1 ha
    exact keeps_loop hev ht hf hat _

theorem keeps_forEach {name : String} {values forms : List Value} (hv : ∀ v ∈ values, v.MadeOf m)
    (hf : ∀ form ∈ forms, C form) (hat : Inside defs E scope) (frame : FrameId) :
    SettlesIn F m P (fun _ => True) fun i => forEach (ev i) name values forms frame scope := by
  induction values with
  | nil => exact .ret True.intro
  | cons v rest ih =>
    obtain ⟨hv, hr⟩ := List.forall_mem_cons.1 hv
    refine (keeps_define hv.tracked _ _).bind fun _ _ => (keeps_run hev hf hat).bind fun _ _ => ?_
    exact .ite (fun _ => ih hr) fun _ => .ret True.intro

theorem keeps_loopOver {head : LoopHead} {values forms : List Value} {last : Value}
    (hh : ∀ form ∈ head.result, C form) (hv : ∀ v ∈ values, v.MadeOf m) (hl : last.MadeOf m)
    (hf : ∀ form ∈ forms, C form) (hat : Inside defs E scope) :
    SettlesIn F m P (Value.Tracked m) fun i =>
      loopOver (ev i) head values last forms env scope := by
  refine (keeps_newFrame (List.forall_mem_nil _) _).bind fun frame _ => ?_
  have hin := hat.binding [head.name]
  refine (keeps_forEach hev hv hf hin frame).bind fun _ _ =>
    .ite (fun _ => ?_) fun _ => .ret .unknown
  exact (keeps_define hl.tracked _ _).bind fun _ _ => handles_body hev _ _ _ hh hin

include hC

theorem handles_cond : Handles F m defs P E C fun i => cond (ev i) := by
  intro clauses env scope ha hat
  induction clauses with
  | nil => exact .ret (.inr .nil)
  | cons clause rest ih =>
    obtain ⟨hc, hr⟩ := List.forall_mem_cons.1 ha
    match clause, hc with
    | .nil, _ =>
      simp only [Evaluation.cond]
      exact ih hr
    | .list [], _ => exact .ret .unknown
    | .list (test :: forms), hc =>
      obtain ⟨ht, hf⟩ := List.forall_mem_cons.1 (hC.list _ hc)
      refine (hev _ _ _ ht hat).known .unknown fun v hv => .ite (fun _ => ih hr) fun _ => ?_
      exact .ite (fun _ => .ret (.inr hv)) fun _ => handles_body hev _ _ _ hf hat
    | .str _, _ | .int _, _ | .float _, _ | .sym _, _ | .dotted .., _ | .vec _, _ | .closure .., _
    | .unknown, _ => exact .ret .unknown

theorem handles_doList : Handles F m defs P E C fun i => doList (ev i) := by
  intro args env scope ha hat
  match args, ha with
  | [], _ => exact .ret .unknown
  | head :: forms, ha =>
    obtain ⟨hh, hf⟩ := List.forall_mem_cons.1 ha
    rcases hhead : LoopHead.of? head with _ | head
    · simp only [doList, hhead]
      exact .ret .unknown
    · obtain ⟨hrange, hresult⟩ := loopHead_code hC hh hhead
      simp only [doList, hhead]
      refine (hev _ _ _ hrange hat).known .unknown fun seq hseq => ?_
      refine .withResult hseq.asSequence (fun items hitems => ?_) (.ret .unknown)
      exact keeps_loopOver hev hresult hitems .nil hf hat

theorem handles_doTimes : Handles F m defs P E C fun i => doTimes (ev i) := by
  intro args env scope ha hat
  match args, ha with
  | [], _ => exact .ret .unknown
  | head :: forms, ha =>
    obtain ⟨hh, hf⟩ := List.forall_mem_cons.1 ha
    rcases hhead : LoopHead.of? head with _ | head
    · simp only [doTimes, hhead]
      exact .ret .unknown
    · obtain ⟨hrange, hresult⟩ := loopHead_code hC hh hhead
      simp only [doTimes, hhead]
      refine (hev _ _ _ hrange hat).bind fun v hv => ?_
      cases v with
      | int count =>
        refine .ite (fun _ => .ret .unknown) fun _ => keeps_loopOver hev hresult ?_ .int hf hat
        intro v hv
        obtain ⟨i, -, rfl⟩ := List.mem_map.1 hv
        exact .int
      | _ => exact .ret .unknown

end Control

end PatternLint
