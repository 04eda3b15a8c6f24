import PatternLint.Proofs.SettlingApply

/-! A step of evaluation settles where the evaluations that it makes do. -/

namespace PatternLint

open Evaluation

variable {ι : Type} {F : Filter ι} {m : Material} {defs : Definitions} {P : Set String}
  {E : List String} {C : Value → Prop} {ev : ι → Evaluator} {env : FrameId} {scope : Scope}
  {args : List Value} {fault : ι → Fault}
  {bind : Value → List Value → Eval (List (String × Value))}

section Globals

/-- What becomes of a variable when the evaluation of its expression is over. -/
def settled (name : String) (expr : Value) : Except Fault Value → Eval Value
  | .ok v => do
    Eval.putGlobal name (.known v)
    return v
  | .error f => do
    Eval.putGlobal name (.pending expr)
    throw f

/-- While a variable is busy it waits for no value, so that one waits less. Afterwards it is
known, or waits again. -/
theorem keeps_globalValue
    (hev : ∀ name ∈ P, Steady F m defs (P \ {name}) [] (Value.MadeOf m) ev) (name : String)
    (hat : Inside defs E scope) :
    SettlesIn F m P (Value.Tracked m)
      fun i => globalValue (.variant (fault i) bind) (ev i) name scope := by
  intro s hs
  rcases hg : s.globals.get? name with _ | g
  · refine ⟨.ok .unknown, s, .of_forall fun i => ?_, hs, .ok .unknown⟩
    simp only [globalValue, Eval.bind_apply, Eval.global?, hg]
    rfl
  have hmade := hs.globals name g hg
  cases g with
  | known v =>
    refine ⟨.ok v, s, .of_forall fun i => ?_, hs, .ok hmade⟩
    simp only [globalValue, Eval.bind_apply, Eval.global?, hg]
    rfl
  | busy expr =>
    refine ⟨.ok .unknown, s, .of_forall fun i => ?_, hs, .ok .unknown⟩
    simp only [globalValue, Eval.bind_apply, Eval.global?, hg]
    rfl
  | pending expr =>
    have hname : name ∈ P := hs.pending name expr hg
    -- what is done while the variable is busy
    let inner (i : ι) : Eval (Except Fault Value) := do
      let root ← Eval.newFrame none []
      Eval.attempt (findValue (.variant (fault i) bind) (ev i) expr root scope)
    have hsplit : ∀ i, globalValue (.variant (fault i) bind) (ev i) name scope s =
        (inner i >>= settled name expr) { s with globals := s.globals.put name (.busy expr) } := by
      intro i
      simp only [globalValue, Eval.bind_apply, Eval.global?, hg]
      rfl
    have hinner : SettlesIn F m (P \ {name}) (Returns (Value.Tracked m)) inner := by
      refine (keeps_newFrame (List.forall_mem_nil _) _).bind fun root _ => .attempt ?_
      have hinside : Inside defs [] ⟨scope.defs, root, [], [], [], scope.loopLimit⟩ :=
        ⟨hat.defs, rfl⟩
      refine (hev name hname .nil root _ .nil hinside).bind fun _ _ => ?_
      exact .orDefault (hev name hname expr root _ hmade hinside) .unknown
    have hbusy : Store.Within m (P \ {name})
        { s with globals := s.globals.put name (.busy expr) } :=
      hs.putGlobal hmade (fun k hk hne => ⟨hk, hne⟩) (by rintro _ ⟨⟩)
    obtain ⟨r, t, hrun, ht, hr⟩ := hinner _ hbusy
    have hlast : ∀ g : Global, g.MadeOf m →
        Store.Within m P { t with globals := t.globals.put name g } :=
      fun g hg => ht.putGlobal hg (fun k hk _ => hk.1) fun _ _ => hname
    simp only [hsplit, Eval.bind_apply]
    rcases r with f | (f | v)
    · refine ⟨.error f, t, hrun.mono fun i hi => ?_, ?_, .error⟩
      · simp only [hi]
      · exact ⟨ht.toMadeOf, fun k e hk => (ht.pending k e hk).1⟩
    · refine ⟨.error f, _, hrun.mono fun i hi => ?_, hlast (.pending expr) hmade, .error⟩
      simp only [hi]
      rfl
    · have hv : v.Tracked m := hr _ rfl v rfl
      refine ⟨.ok v, _, hrun.mono fun i hi => ?_, hlast (.known v) hv, .ok hv⟩
      simp only [hi]
      rfl

theorem keeps_variableValue
    (hev : ∀ name ∈ P, Steady F m defs (P \ {name}) [] (Value.MadeOf m) ev) {name : String}
    (hname : m.symbol name) (hat : Inside defs E scope) :
    SettlesIn F m P (Value.Tracked m)
      fun i => variableValue (.variant (fault i) bind) (ev i) name env scope := by
  refine .ite (fun _ => .ret (.inr .nil)) fun _ =>
    .ite (fun _ => .ret (.inr (.sym hname))) fun _ => ?_
  refine (keeps_lookup name env).bind fun o ho => ?_
  cases o with
  | none => exact keeps_globalValue hev name hat
  | some v => exact .ret (ho v rfl)

end Globals

section Calls

theorem Evaluation.SpecialForm.named?_lambda {name : String}
    (h : SpecialForm.named? name = some .lambda) : name = "lambda" := by
  have := mem_of_lookup h
  simpa [SpecialForm.all] using this

theorem Evaluation.SpecialForm.named?_rxToString {name : String}
    (h : SpecialForm.named? name = some .rxToString) : name = "rx-to-string" := by
  have := mem_of_lookup h
  simpa [SpecialForm.all] using this

variable (hdefs : defs.MadeOf m) (hbind : Binds F m bind) (hev : Supports F m defs P E C ev)
include hdefs hbind hev

theorem handles_form {name : String} {form : SpecialForm} (hname : m.symbol name)
    (h : SpecialForm.named? name = some form) :
    Handles F m defs P E C fun i => form.run (.variant (fault i) bind) (ev i) := by
  have hC := hev.code
  have hparts := hev.parts
  cases form with
  | quote => exact handles_quote hC
  | function => exact handles_function hC
  | lambda =>
    rw [SpecialForm.named?_lambda h] at hname
    exact handles_lambda hC (m.runs_lambda hname)
  | template => exact handles_template hC hparts
  | ifThenElse => exact handles_ifThenElse hparts
  | cond => exact handles_cond hC hparts
  | when holds => exact handles_when hparts holds
  | and => exact handles_andFrom hparts (.sym m.symbol_t)
  | or => exact handles_or hparts
  | progn => exact handles_body hparts
  | valueOfNth index => exact handles_valueOfNth hparts index
  | letForm => exact handles_letForm hC hparts
  | letStarForm => exact handles_letStarForm hC hparts
  | set => exact handles_set hparts
  | push => exact handles_push hparts
  | pop => exact handles_pop hparts
  | «while» => exact handles_while hparts
  | doList => exact handles_doList hC hparts
  | doTimes => exact handles_doTimes hC hparts
  | mapOver c => exact handles_mapOver hdefs hbind hev c
  | mapTogether => exact handles_mapTogether hdefs hbind hev
  | reduce => exact handles_reduce hdefs hbind hev
  | apply => exact handles_applyForm hdefs hbind hev
  | funcall => exact handles_funcall hdefs hbind hev
  | rx => exact handles_rx hC hparts
  | rxToString =>
    rw [SpecialForm.named?_rxToString h] at hname
    exact handles_rxToString hparts (hev.runs (m.runs_rxToString hname))

theorem handles_callByName {head : String} (hhead : m.symbol head) :
    Handles F m defs P E C fun i => callByName (.variant (fault i) bind) (ev i) head := by
  intro args env scope ha hat
  simp only [callByName]
  cases hf : SpecialForm.named? head with
  | some form => exact handles_form hdefs hbind hev hhead hf args env scope ha hat
  | none =>
    have hname : m.symbol (scope.defs.resolve head) := hat.defs ▸ hdefs.resolve hhead
    dsimp only
    generalize scope.defs.resolve head = name at hname
    rw [hat.defs]
    cases hm : defs.macros.get? name with
    | some d => exact handles_expandMacro hdefs hbind hev hm args env scope ha hat
    | none =>
      cases hd : defs.functions.get? name with
      | some d =>
        refine (keeps_operands hev.parts ha hat).bind fun vs hvs => ?_
        exact keeps_applyDefinition hdefs hbind hev (.inl hd) hvs hat
      | none =>
        cases hform : SpecialForm.named? name with
        | some form => exact handles_form hdefs hbind hev hname hform args env scope ha hat
        | none =>
          cases hp : Primitive.named? name with
          | none => exact .ret .unknown
          | some f =>
            refine keeps_ofKnown hev.parts ha hat fun vs hvs => ?_
            exact callPrimitive_tracked (Primitive.composes_named hp) fun a h => .inr (hvs a h)

/-- Made of the material, with code for the items if it is a list. -/
def Whole (m : Material) (C : Value → Prop) (v : Value) : Prop :=
  v.MadeOf m ∧ ∀ items, v = .list items → ∀ x ∈ items, C x

theorem keeps_step (fault : ι → Fault) :
    Steady F m defs P E (Whole m C) fun i => step (.variant (fault i) bind) (ev i) := by
  rintro expr env scope ⟨hmade, hitems⟩ hat
  match expr, hmade with
  | .sym name, .sym hname => exact keeps_variableValue hev.global hname hat
  | .dotted .., _ => exact .ret .unknown
  | .list [], hmade => exact .ret (.inr hmade)
  | .list (.sym head :: args), .list h _ =>
    obtain ⟨hhead, ha⟩ := List.forall_mem_cons.1 (hitems _ rfl)
    cases hev.code.madeOf _ hhead with
    | sym hhead => exact handles_callByName hdefs hbind hev hhead args env scope ha hat
  | .list (.list inner :: args), _ =>
    obtain ⟨hhead, ha⟩ := List.forall_mem_cons.1 (hitems _ rfl)
    by_cases hl : ∃ formals body, inner = lambdaMark :: formals :: body
    · obtain ⟨formals, body, rfl⟩ := hl
      cases hev.code.madeOf _ hhead with
      | list h _ =>
        obtain ⟨hmark, h⟩ := List.forall_mem_cons.1 h
        obtain ⟨hf, hb⟩ := List.forall_mem_cons.1 h
        cases hmark with
        | sym hmark =>
          refine (keeps_operands hev.parts ha hat).bind fun vs hvs => ?_
          exact keeps_applyClosure hbind hev (m.runs_lambda hmark) hf hb _ hvs hat
    · have hstuck : ∀ p ev, step p ev (.list (.list inner :: args)) env scope = pure .unknown := by
        intro p ev
        rw [step]
        · nofun
        · rintro formals body h
          cases h
          exact hl ⟨_, _, rfl⟩
      simp only [hstuck]
      exact .ret .unknown
  | .list (.nil :: _), _ | .list (.str _ :: _), _ | .list (.int _ :: _), _
  | .list (.float _ :: _), _ | .list (.dotted .. :: _), _ | .list (.vec _ :: _), _
  | .list (.closure .. :: _), _ | .list (.unknown :: _), _ => exact .ret .unknown
  | .nil, hmade | .str _, hmade | .int _, hmade | .float _, hmade | .vec _, hmade
  | .closure .., hmade | .unknown, hmade => exact .ret (.inr hmade)

end Calls

section Structure

theorem construction_code {expr : Value} {c : Construction}
    (hitems : ∀ items, expr = .list items → ∀ x ∈ items, C x) (h : Construction.of? expr = some c) :
    match c with
    | .list parts | .append parts => ∀ x ∈ parts, C x
    | .cons a b => C a ∧ C b
    | .same part | .template part => C part := by
  unfold Construction.of? at h
  split at h <;> cases h <;> simp_all

theorem orNil_madeOf {v : Value} (h : v.Tracked m) : (orNil v).MadeOf m := by
  unfold orNil
  split
  · exact .nil
  · rename_i hknown
    exact h.madeOf (Bool.eq_false_iff.2 hknown)

/-- Evaluates code to values that are known as a whole. -/
def Solid (F : Filter ι) (m : Material) (defs : Definitions) (P : Set String) (E : List String)
    (C : Value → Prop) (ev : ι → Evaluator) : Prop :=
  ∀ expr env scope, C expr → Inside defs E scope →
    SettlesIn F m P (Value.MadeOf m) fun i => ev i expr env scope

theorem keeps_build {c : Construction} {expr : Value} (hC : Code m C)
    (hev : Solid F m defs P E C ev) (hitems : ∀ items, expr = .list items → ∀ x ∈ items, C x)
    (h : Construction.of? expr = some c) (hat : Inside defs E scope) :
    SettlesIn F m P (Value.MadeOf m) fun i => c.build (ev i) env scope := by
  have hcode := construction_code hitems h
  have hoperands : ∀ parts, (∀ x ∈ parts, C x) → SettlesIn F m P (fun vs => ∀ v ∈ vs, v.MadeOf m)
      fun i => (ev i).operands parts env scope :=
    fun parts hparts => keeps_mapM fun x hx => hev x _ _ (hparts x hx) hat
  cases c with
  | list parts => exact (hoperands parts hcode).bind fun vs hvs => .ofExcept (.ofItems hvs)
  | cons a b =>
    refine (hev a _ _ hcode.1 hat).bind fun x hx => (hev b _ _ hcode.2 hat).bind fun y hy => ?_
    exact .ret (.prepend (List.forall_mem_singleton.2 hx) hy)
  | append parts =>
    have hjoined : SettlesIn F m P (Value.Tracked m) fun i =>
        ((ev i).operands parts env scope >>= fun vs => Eval.ofExcept (Primitive.append vs)) := by
      refine (hoperands parts hcode).bind fun vs hvs => .ofExcept ?_
      exact (Primitive.composes_append vs hvs).mono fun _ => .inr
    exact (hjoined.orUnknown .unknown).bind fun v hv => .ret (orNil_madeOf hv)
  | same part => exact hev part _ _ hcode hat
  | template part =>
    have hsteady : Steady F m defs P E C ev :=
      fun expr env scope he hat => (hev expr env scope he hat).mono fun _ => .inr
    exact ((keeps_expand_all hC hsteady hat).1 part hcode).bind fun v hv => .ret (orNil_madeOf hv)

end Structure

section Parameters

theorem LambdaList.take_tracked {mode : LambdaList.Mode} (listed : Bool)
    (ha : ∀ a ∈ args, a.Tracked m) (hr : mode = .rest → ∀ a ∈ args, a.MadeOf m) :
    (take mode listed args).1.Tracked m ∧ ∀ a ∈ (take mode listed args).2, a.Tracked m := by
  have hnext : (next args).1.Tracked m ∧ ∀ a ∈ (next args).2, a.Tracked m := by
    cases args with
    | nil => exact ⟨.inr .nil, List.forall_mem_nil _⟩
    | cons a rest => exact List.forall_mem_cons.1 ha
  cases mode with
  | required =>
    cases listed
    · exact hnext
    · exact ⟨.unknown, fun a h => ha a (List.mem_of_mem_drop h)⟩
  | optional => exact hnext
  | rest => exact ⟨.inr (.ofList (hr rfl)), List.forall_mem_nil _⟩
  | untracked => exact ⟨.unknown, ha⟩

/-- A parameter that gathers arguments is the only one that can hide an unknown value. -/
theorem LambdaList.bindSpecs_tracked {mode : LambdaList.Mode} {specs : List LambdaList.Spec}
    (ha : ∀ a ∈ args, a.Tracked m) (hg : ∀ a ∈ gathered mode specs args, a.MadeOf m) :
    ∀ b ∈ bindSpecs mode specs args, b.2.Tracked m := by
  induction specs generalizing mode args with
  | nil => exact List.forall_mem_nil _
  | cons spec rest ih =>
    -- what a parameter takes, and what it leaves to those behind it
    have hstep : ∀ listed, (∀ a ∈ (if mode = .rest then args else []) ++
          gathered mode rest (take mode listed args).2, a.MadeOf m) →
        (take mode listed args).1.Tracked m ∧
          ∀ b ∈ bindSpecs mode rest (take mode listed args).2, b.2.Tracked m := by
      intro listed hg
      obtain ⟨hhere, hbehind⟩ := List.forall_mem_append.1 hg
      obtain ⟨hv, hleft⟩ := take_tracked listed ha fun hr => by rwa [if_pos hr] at hhere
      exact ⟨hv, ih hleft hbehind⟩
    cases spec with
    | keyword mode => exact ih ha hg
    | pattern => exact ih ha hg
    | plain name => exact List.forall_mem_cons.2 (hstep false hg)
    | listed name => exact List.forall_mem_cons.2 (hstep true hg)

/-- Where values may have unknown parts, a list of arguments is one of them. -/
theorem binds_plain (hm : m.unknown) : Binds F m Policy.plain.bind := by
  intro P formals args _ ha
  refine .ret (LambdaList.bindSpecs_tracked ha fun a h => ?_)
  exact (ha a (LambdaList.gathered_subset _ _ _ h)).madeOf_of_unknown hm

end Parameters

/-! Evaluations whose depth is bounded, for one bound and one way to bind parameters. -/

section Bounded

theorem Value.MadeOf.whole {v : Value} (h : v.MadeOf m) : Whole m (Value.MadeOf m) v :=
  ⟨h, fun items hv => Code.all.list items (hv ▸ h)⟩

variable (one : Fault) (hdefs : defs.MadeOf m) (hbind : Binds (⊤ : Filter Unit) m bind)
include hdefs hbind

theorem steady_evalBy (depth : Nat) (P : Set String) (E : List String) :
    Steady (⊤ : Filter Unit) m defs P E (Value.MadeOf m)
      fun _ => evalBy (.variant one bind) depth := by
  induction depth generalizing P E with
  | zero => exact fun _ _ _ _ _ => .fail
  | succ depth ih =>
    have hev : Supports (⊤ : Filter Unit) m defs P E (Value.MadeOf m)
        fun _ => evalBy (.variant one bind) depth :=
      ⟨.all, ih P E, fun name _ _ _ => ih P (name :: E), fun name _ => ih _ [], fun _ => ih P E⟩
    intro expr env scope hmade hat
    exact keeps_step hdefs hbind hev (fun _ => one) expr env scope hmade.whole hat

theorem solid_evalStructure (depth calls : Nat) (P : Set String) (E : List String) :
    Solid (⊤ : Filter Unit) m defs P E (Value.MadeOf m)
      fun _ => evalStructureWithin (.variant one bind) depth calls := by
  induction depth generalizing calls with
  | zero => exact fun _ _ _ _ _ => .fail
  | succ depth ih =>
    cases calls with
    | succ calls => exact ih calls
    | zero =>
      intro expr env scope hmade hat
      cases hc : Construction.of? expr with
      | some c =>
        simp only [evalStructureWithin, hc]
        exact keeps_build .all (ih c.calls) hmade.whole.2 hc hat
      | none =>
        simp only [evalStructureWithin, hc]
        refine (steady_evalBy one hdefs hbind depth P E expr env scope hmade hat).bind ?_
        exact fun v hv => .ret (orNil_madeOf hv)

end Bounded

/-- What settles where there is only one case to look at. -/
theorem Settles.run {α : Type} {I : Store → Prop} {Q : α → Prop} {c : Eval α} {s : Store}
    (h : Settles (⊤ : Filter Unit) I Q fun _ => c) (hs : I s) :
    I (c s).2 ∧ Returns Q (c s).1 := by
  obtain ⟨r, t, hrun, ht, hr⟩ := h s hs
  have hrun : c s = (r, t) := Filter.eventually_top.1 hrun ()
  rw [hrun]
  exact ⟨ht, hr⟩

theorem Store.MadeOf.within {s : Store} (h : s.MadeOf m) : s.Within m Set.univ :=
  ⟨h, fun _ _ _ => Set.mem_univ _⟩

/-- What `ev` finds in a fresh frame, or a default for what is too deep. -/
theorem keeps_within {one : Evaluator} {V : Value → Prop} {default expr : Value}
    (hev : ∀ env scope, Inside defs [] scope →
      SettlesIn F m P V fun _ : ι => one expr env scope) (hd : V default)
    (env : Option FrameId) (mutables : List String) (loopLimit : Nat) :
    SettlesIn F m P V
      fun _ : ι => Evaluation.within one default expr env mutables defs loopLimit := by
  refine (keeps_newFrame (List.forall_mem_nil _) env).bind fun root _ => ?_
  exact .orDefault (hev root _ ⟨rfl, rfl⟩) hd

end PatternLint
