import Mathlib.Data.List.Induction
import PatternLint.Proofs.SettlingQuote

/-! Bindings and calls settle where the evaluations that they make do. -/

namespace PatternLint

open Evaluation

variable {ι : Type} {F : Filter ι} {m : Material} {defs : Definitions} {P : Set String}
  {E : List String} {C : Value → Prop} {ev : ι → Evaluator} {env : FrameId} {scope : Scope}
  {args : List Value} {fault : ι → Fault}
  {bind : Value → List Value → Eval (List (String × Value))}

section Binding

/-- What is taken off a value is of its material. -/
theorem parts_tracked {old : Value} (h : old.Tracked m) :
    Returns (fun p => p.1.Tracked m ∧ p.2.Tracked m) (parts old) := by
  refine .ite (fun _ => .ok ⟨.unknown, .unknown⟩) fun hknown => ?_
  have hold := h.madeOf (Bool.eq_false_iff.2 hknown)
  refine (Primitive.car_madeOf hold).bind fun first hf => (Primitive.cdr_madeOf hold).bind ?_
  exact fun rest hr => .ret ⟨.inr hf, .inr hr⟩

section Assign

variable (hev : Steady F m defs P E C ev)
include hev

/-- Each pair keeps the store of the material, whether its value is known or not. -/
theorem handles_setPairs {last : Value} (hl : last.Tracked m) :
    Handles F m defs P E C fun i => setPairs (.variant (fault i) bind) (ev i) last := by
  intro args env scope ha hat
  induction args using List.twoStepInduction generalizing last with
  | nil => exact .ret hl
  | singleton x => cases x <;> exact .ret .unknown
  | cons_cons x form rest ih _ =>
    obtain ⟨_, ha⟩ := List.forall_mem_cons.1 ha
    obtain ⟨hf, hr⟩ := List.forall_mem_cons.1 ha
    cases x with
    | sym name =>
      refine (hev _ _ _ hf hat).bind fun v hv => (keeps_assign hv name env scope).bind fun _ _ => ?_
      exact ih hv hr
    | _ => exact .ret .unknown

theorem handles_set : Handles F m defs P E C fun i => set (.variant (fault i) bind) (ev i) := by
  intro args env scope ha hat
  exact .ite (fun _ => handles_setPairs hev (.inr .nil) args env scope ha hat)
    fun _ => .ret .unknown

theorem handles_push : Handles F m defs P E C fun i => push (.variant (fault i) bind) (ev i) := by
  intro args env scope ha hat
  match args, ha with
  | [], _ => exact .ret .unknown
  | [form, target], ha =>
    cases target with
    | sym name =>
      refine (hev _ _ _ (ha form (by simp)) hat).bind fun x hx => ?_
      refine (hev _ _ _ (ha (.sym name) (by simp)) hat).bind fun old hold => ?_
      have hnew : Value.Tracked m
          (if x.isUnknown || old.isUnknown then .unknown else Value.prepend [x] old) := by
        split
        · exact .unknown
        · rename_i hknown
          rw [Bool.or_eq_true, not_or, Bool.not_eq_true, Bool.not_eq_true] at hknown
          refine .inr (.prepend (List.forall_mem_singleton.2 ?_) (hold.madeOf hknown.2))
          exact hx.madeOf hknown.1
      exact (keeps_assign hnew name env scope).bind fun _ _ => .ret hnew
    | _ => exact .ret .unknown
  | [x], _ => cases x <;> exact .ret .unknown
  | _ :: x :: _ :: _, _ => cases x <;> exact .ret .unknown

theorem handles_pop : Handles F m defs P E C fun i => pop (.variant (fault i) bind) (ev i) := by
  intro args env scope ha hat
  match args, ha with
  | [], _ => exact .ret .unknown
  | [target], ha =>
    cases target with
    | sym name =>
      refine (hev _ _ _ (ha (.sym name) List.mem_cons_self) hat).bind fun old hold => ?_
      have hgive : ∀ first rest : Value, first.Tracked m → rest.Tracked m →
          SettlesIn F m P (Value.Tracked m) fun _ => (do
            Evaluation.assign name rest env scope
            return first) :=
        fun first rest hf hr => (keeps_assign hr name env scope).bind fun _ _ => .ret hf
      exact .withResult (parts_tracked hold) (fun p hp => hgive _ _ hp.1 hp.2)
        (hgive _ _ .unknown .unknown)
    | _ => exact .ret .unknown
  | x :: _ :: _, _ => cases x <;> exact .ret .unknown

end Assign

section Let

variable (hC : Code m C) (hev : Steady F m defs P E C ev)
include hC hev

/-- Values are found in the frame outside, whose variables are of the material. -/
theorem handles_letForm :
    Handles F m defs P E C fun i => letForm (.variant (fault i) bind) (ev i) := by
  intro args env scope ha hat
  match args, ha with
  | [], _ => exact .ret .unknown
  | head :: forms, ha =>
    obtain ⟨hh, hf⟩ := List.forall_mem_cons.1 ha
    rcases hbs : bindings? head with _ | bs
    · simp only [letForm, hbs]
      exact .ret .unknown
    · have hinits : ∀ form ∈ bs.map (·.2), C form := by
        intro form hform
        obtain ⟨b, hb, rfl⟩ := List.mem_map.1 hform
        exact of_bindings? (hC.nil _ hh) hC.list hh hbs b hb
      simp only [letForm, hbs]
      refine (keeps_operands hev hinits hat).bind fun values hvalues => ?_
      have hzip : ∀ b ∈ (bs.map (·.1)).zip values, b.2.Tracked m :=
        fun b hb => hvalues _ (List.of_mem_zip hb).2
      refine (keeps_newFrame hzip _).bind fun frame _ => ?_
      exact handles_body hev _ _ _ hf (hat.binding _)

omit hC in
/-- Each binding sees those before it. -/
theorem keeps_bindInTurn {bs : List (String × Value)} (hb : ∀ b ∈ bs, C b.2)
    (hat : Inside defs E scope) (frame : FrameId) :
    SettlesIn F m P (Inside defs E)
      fun i => bindInTurn (.variant (fault i) bind) (ev i) frame scope bs := by
  induction bs generalizing scope with
  | nil => exact .ret hat
  | cons b rest ih =>
    obtain ⟨hb, hr⟩ := List.forall_mem_cons.1 hb
    refine (hev _ _ _ hb hat).bind fun v hv => (keeps_define hv _ _).bind fun _ _ => ?_
    exact ih hr (hat.binding [b.1])

theorem handles_letStarForm :
    Handles F m defs P E C fun i => letStarForm (.variant (fault i) bind) (ev i) := by
  intro args env scope ha hat
  match args, ha with
  | [], _ => exact .ret .unknown
  | head :: forms, ha =>
    obtain ⟨hh, hf⟩ := List.forall_mem_cons.1 ha
    rcases hbs : bindings? head with _ | bs
    · simp only [letStarForm, hbs]
      exact .ret .unknown
    · simp only [letStarForm, hbs]
      refine (keeps_newFrame (List.forall_mem_nil _) _).bind fun frame _ => ?_
      refine (keeps_bindInTurn hev (of_bindings? (hC.nil _ hh) hC.list hh hbs) hat frame).bind
        fun inner hin => ?_
      exact handles_body hev _ _ _ hf hin

end Let

end Binding

section Apply

/-- A primitive composes what it is given, or its result is unknown. -/
theorem callPrimitive_tracked {f : Primitive} (hf : f.Composes m) (ha : ∀ a ∈ args, a.Tracked m) :
    SettlesIn F m P (Value.Tracked m) fun _ => callPrimitive f args := by
  refine .ite (fun _ => .ret .unknown) fun hknown => ?_
  have hmade : ∀ a ∈ args, a.MadeOf m := by
    intro a h
    refine (ha a h).madeOf (Bool.eq_false_iff.2 fun hu => hknown ?_)
    exact List.any_eq_true.2 ⟨a, h, hu⟩
  have hres := hf args hmade
  generalize f args = r at hres
  cases r with
  | ok v => exact .ret (.inr (hres v rfl))
  | error e => exact .ite (fun _ => .ret .unknown) fun _ => .fail

/-- Functions that a call may lead to. -/
def Evaluation.Callee.Sound (m : Material) (defs : Definitions) : Callee → Prop
  | .closure formals body _ => m.runs ∧ formals.MadeOf m ∧ ∀ form ∈ body, form.MadeOf m
  | .defined name d => defs.functions.get? name = some d
  | .primitive f => f.Composes m

/-- What is found to be called has code of the material. -/
theorem callee_sound {v : Value} {f : Callee} (hv : v.MadeOf m)
    (h : callee? scope v = some f) : f.Sound m scope.defs := by
  unfold callee? at h
  split at h
  · cases h
    cases hv with
    | closure hr hf hb => exact ⟨hr, hf, hb⟩
  · cases h
    cases hv with
    | list h _ =>
      obtain ⟨hmark, h⟩ := List.forall_mem_cons.1 h
      obtain ⟨hf, hb⟩ := List.forall_mem_cons.1 h
      cases hmark with
      | sym hmark => exact ⟨m.runs_lambda hmark, hf, hb⟩
  · dsimp only at h
    split at h
    · rename_i hd
      cases h
      exact hd
    · obtain ⟨g, hg, rfl⟩ := Option.map_eq_some_iff.1 h
      exact Primitive.composes_named hg
  · cases h

variable (hdefs : defs.MadeOf m) (hbind : Binds F m bind) (hev : Supports F m defs P E C ev)
include hbind hev

/-- The code of a closure is run with parameters of the material. -/
theorem keeps_applyClosure {formals : Value} {body : List Value} (hr : m.runs)
    (hf : formals.MadeOf m) (hb : ∀ form ∈ body, form.MadeOf m) (frame : Option FrameId)
    (ha : ∀ a ∈ args, a.Tracked m) (hat : Inside defs E scope) :
    SettlesIn F m P (Value.Tracked m)
      fun i => applyClosure (.variant (fault i) bind) (ev i) formals body frame args scope := by
  refine (hbind P formals args hf ha).bind fun bs hbs => ?_
  refine (keeps_newFrame hbs _).bind fun env _ => ?_
  exact handles_body (hev.runs hr) _ _ _ hb (hat.binding _)

include hdefs

/-- Known functions have code of the material by assumption. -/
theorem keeps_applyDefinition {name : String} {d : Definition}
    (hd : defs.functions.get? name = some d ∨ defs.macros.get? name = some d)
    (ha : ∀ a ∈ args, a.Tracked m) (hat : Inside defs E scope) :
    SettlesIn F m P (Value.Tracked m)
      fun i => applyDefinition (.variant (fault i) bind) (ev i) name d args scope := by
  have hmade : d.MadeOf m := hd.elim (hdefs.functions name d) (hdefs.macros name d)
  refine .ite (fun _ => .ret .unknown) fun hname => ?_
  rw [hat.expanding] at hname
  refine (keeps_newFrame (List.forall_mem_nil _) _).bind fun root _ => ?_
  refine (hbind P d.formals args hmade.formals ha).bind fun bs hbs => ?_
  refine (keeps_newFrame hbs _).bind fun env _ => ?_
  exact handles_body (hev.inner name d hname hd) _ _ _ hmade.body
    ⟨hat.defs, congrArg _ hat.expanding⟩

theorem keeps_callee {f : Callee} (hf : f.Sound m defs) (ha : ∀ a ∈ args, a.Tracked m)
    (hat : Inside defs E scope) :
    SettlesIn F m P (Value.Tracked m)
      fun i => f.apply (.variant (fault i) bind) (ev i) args scope := by
  cases f with
  | closure formals body frame =>
    exact keeps_applyClosure hbind hev hf.1 hf.2.1 hf.2.2 frame ha hat
  | defined name d => exact keeps_applyDefinition hdefs hbind hev (.inl hf) ha hat
  | primitive f => exact callPrimitive_tracked hf ha

/-- An expansion is no part of the form that it takes the place of, but it is
evaluated inside of the macro. -/
theorem handles_expandMacro {name : String} {d : Definition}
    (hd : defs.macros.get? name = some d) :
    Handles F m defs P E C
      fun i => expandMacro (.variant (fault i) bind) (ev i) name d := by
  intro args env scope ha hat
  have hargs : ∀ a ∈ args, a.Tracked m := fun a h => .inr (hev.code.madeOf a (ha a h))
  by_cases hname : name ∈ scope.expanding
  · simp only [expandMacro, applyDefinition, if_pos hname]
    exact .ret .unknown
  · refine (keeps_applyDefinition hdefs hbind hev (.inr hd) hargs hat).known .unknown fun v hv => ?_
    rw [hat.expanding] at hname
    exact hev.inner name d hname (.inr hd) _ _ _ hv ⟨hat.defs, congrArg _ hat.expanding⟩

end Apply

section Mapping

variable (hdefs : defs.MadeOf m) (hbind : Binds F m bind) (hev : Supports F m defs P E C ev)

/-- Items of sequences, arranged by calls. -/
theorem forall_transpose {A : Value → Prop} {seqs : List (List Value)}
    (h : ∀ seq ∈ seqs, ∀ v ∈ seq, A v) : ∀ call ∈ transpose seqs, ∀ v ∈ call, A v := by
  fun_induction transpose seqs with
  | case1 => exact List.forall_mem_nil _
  | case2 items =>
    intro call hcall v hv
    obtain ⟨x, hx, rfl⟩ := List.mem_map.1 hcall
    rw [List.mem_singleton.1 hv]
    exact h items List.mem_cons_self x hx
  | case3 items rest _ ih =>
    obtain ⟨hi, hr⟩ := List.forall_mem_cons.1 h
    intro call hcall v hv
    obtain ⟨k, hk, rfl⟩ := List.mem_iff_getElem.1 hcall
    rw [List.getElem_zipWith] at hv
    rcases List.mem_cons.1 hv with rfl | hv
    · exact hi _ (List.getElem_mem _)
    · exact ih hr _ (List.getElem_mem _) v hv

/-- Each way of collecting composes what was collected. -/
theorem collect_madeOf {results : List Value} (c : Collection) (ha : ∀ a ∈ args, a.MadeOf m)
    (hr : ∀ v ∈ results, v.MadeOf m) : Returns (Value.MadeOf m) (c.collect args results) := by
  cases c with
  | items => exact .ofItems hr
  | spliced =>
    exact Primitive.composes_append _ (Value.MadeOf.append hr (List.forall_mem_singleton.2 .nil))
  | text => exact Primitive.concat_madeOf _
  | kept whenTrue =>
    have hseq : (args.headD .nil).MadeOf m := by
      cases args with
      | nil => exact .nil
      | cons v _ => exact ha v List.mem_cons_self
    refine hseq.asSequence.bind fun items hitems => .ofItems fun v hv => ?_
    obtain ⟨p, hp, rfl⟩ := List.mem_map.1 hv
    exact hitems _ (List.of_mem_zip (List.mem_filter.1 hp).1).1

/-- A function and its arguments, all of which have to be known. -/
theorem keeps_call (hev : Steady F m defs P E C ev) (ha : ∀ a ∈ args, C a)
    (hat : Inside defs E scope) :
    SettlesIn F m P (fun o => ∀ c ∈ o, c.1.Sound m defs ∧ ∀ v ∈ c.2, v.MadeOf m)
      fun i => call? (ev i) args env scope := by
  refine (keeps_known hev ha hat).bind fun o ho => ?_
  match o, ho with
  | none, _ => exact .ret nofun
  | some [], _ => exact .ret nofun
  | some (g :: values), ho =>
    obtain ⟨hg, hvalues⟩ := List.forall_mem_cons.1 (ho _ rfl)
    refine .ret fun c hc => ?_
    obtain ⟨f, hf, rfl⟩ := Option.map_eq_some_iff.1 hc
    exact ⟨hat.defs ▸ callee_sound hg hf, hvalues⟩

include hdefs hbind hev

/-- Call by call, with the results so far. -/
theorem keeps_resultsOnto (fault : ι → Fault) {f : Callee} {results : List Value}
    {calls : List (List Value)} (hf : f.Sound m defs) (hr : ∀ v ∈ results, v.MadeOf m)
    (hc : ∀ call ∈ calls, ∀ v ∈ call, v.MadeOf m) (hat : Inside defs E scope) :
    SettlesIn F m P (fun o => ∀ vs ∈ o, ∀ v ∈ vs, v.MadeOf m)
      fun i => resultsOnto (.variant (fault i) bind) (ev i) f results scope calls := by
  induction calls generalizing results with
  | nil =>
    refine .ret fun vs hvs v hv => ?_
    cases hvs
    exact hr v (List.mem_reverse.1 hv)
  | cons call rest ih =>
    obtain ⟨hcall, hrest⟩ := List.forall_mem_cons.1 hc
    have hargs : ∀ a ∈ call, a.Tracked m := fun a h => .inr (hcall a h)
    refine (keeps_callee hdefs hbind hev hf hargs hat).known nofun fun v hv => ?_
    exact ih (List.forall_mem_cons.2 ⟨hv, hr⟩) hrest

/-- What follows the results of calls, all of which have to be known. -/
theorem keeps_results {f : Callee} {calls : List (List Value)} {k : List Value → Eval Value}
    (hf : f.Sound m defs) (hc : ∀ call ∈ calls, ∀ v ∈ call, v.MadeOf m)
    (hat : Inside defs E scope)
    (hk : ∀ vs, (∀ v ∈ vs, v.MadeOf m) → SettlesIn F m P (Value.Tracked m) fun _ : ι => k vs) :
    SettlesIn F m P (Value.Tracked m)
      fun i => results (.variant (fault i) bind) (ev i) f calls scope >>= fun
        | none => return .unknown
        | some vs => k vs := by
  have hres := keeps_resultsOnto hdefs hbind hev fault hf (List.forall_mem_nil _) hc hat
  refine hres.bind fun o ho => ?_
  cases o with
  | none => exact .ret .unknown
  | some vs => exact hk vs (ho vs rfl)

theorem handles_funcall :
    Handles F m defs P E C fun i => funcall (.variant (fault i) bind) (ev i) := by
  intro args env scope ha hat
  refine (keeps_call hev.parts ha hat).bind fun o ho => ?_
  match o, ho with
  | none, _ => exact .ret .unknown
  | some (f, vs), ho =>
    obtain ⟨hf, hvs⟩ := ho _ rfl
    exact keeps_callee hdefs hbind hev hf (fun a h => .inr (hvs a h)) hat

theorem handles_mapOver (c : Collection) :
    Handles F m defs P E C fun i => mapOver (.variant (fault i) bind) (ev i) c := by
  intro args env scope ha hat
  refine .ite (fun _ => .ret .unknown) fun _ => (keeps_call hev.parts ha hat).bind fun o ho => ?_
  match o, ho with
  | none, _ => exact .ret .unknown
  | some (_, []), _ => exact .ret .unknown
  | some (f, seq :: more), ho =>
    obtain ⟨hf, hvs⟩ := ho _ rfl
    have hseq := hvs seq List.mem_cons_self
    refine .withResult hseq.asSequence (fun items hitems => ?_) (.ret .unknown)
    have hcalls : ∀ call ∈ items.map ([·]), ∀ v ∈ call, v.MadeOf m := by
      intro call hcall v hv
      obtain ⟨x, hx, rfl⟩ := List.mem_map.1 hcall
      rw [List.mem_singleton.1 hv]
      exact hitems x hx
    refine keeps_results hdefs hbind hev hf hcalls hat fun vs hres => ?_
    refine .orUnknown (.ofExcept ?_) .unknown
    exact (collect_madeOf c hvs hres).mono fun _ => .inr

theorem handles_mapTogether :
    Handles F m defs P E C fun i => mapTogether (.variant (fault i) bind) (ev i) := by
  intro args env scope ha hat
  refine .ite (fun _ => .ret .unknown) fun _ => (keeps_call hev.parts ha hat).bind fun o ho => ?_
  match o, ho with
  | none, _ => exact .ret .unknown
  | some (f, seqs), ho =>
    obtain ⟨hf, hvs⟩ := ho _ rfl
    have hseqs := Returns.mapM hvs fun v hv => hv.asSequence
    refine .withResult hseqs (fun lists hlists => ?_) (.ret .unknown)
    refine keeps_results hdefs hbind hev hf (forall_transpose hlists) hat fun vs hres => ?_
    exact .ofExcept ((Value.MadeOf.ofItems hres).mono fun _ => .inr)

theorem handles_applyForm :
    Handles F m defs P E C fun i => applyForm (.variant (fault i) bind) (ev i) := by
  intro args env scope ha hat
  refine .ite (fun _ => .ret .unknown) fun _ => (keeps_call hev.parts ha hat).bind fun o ho => ?_
  match o, ho with
  | none, _ => exact .ret .unknown
  | some (f, vs), ho =>
    obtain ⟨hf, hvs⟩ := ho _ rfl
    have hlast : (vs.getLastD .nil).MadeOf m := by
      rw [List.getLastD_eq_getLast?]
      exact .getD_nil fun v hv => hvs v (List.mem_of_getLast? hv)
    refine .withResult hlast.asList (fun items hitems => ?_) (.ret .unknown)
    refine keeps_callee hdefs hbind hev hf (fun a h => .inr ?_) hat
    exact Value.MadeOf.append (fun v hv => hvs v (List.dropLast_subset _ hv)) hitems a h

/-- What is reduced so far stays of the material. -/
theorem keeps_reduceFrom {f : Callee} {acc : Value} {items : List Value} (hf : f.Sound m defs)
    (hacc : acc.MadeOf m) (hi : ∀ v ∈ items, v.MadeOf m) (hat : Inside defs E scope) :
    SettlesIn F m P (Value.Tracked m)
      fun i => reduceFrom (.variant (fault i) bind) (ev i) f scope acc items := by
  induction items generalizing acc with
  | nil => exact .ret (.inr hacc)
  | cons v rest ih =>
    obtain ⟨hv, hr⟩ := List.forall_mem_cons.1 hi
    have hargs : ∀ a ∈ [acc, v], a.Tracked m :=
      List.forall_mem_cons.2 ⟨.inr hacc, List.forall_mem_singleton.2 (.inr hv)⟩
    refine (keeps_callee hdefs hbind hev hf hargs hat).known .unknown fun acc hacc => ?_
    exact ih hacc hr

theorem keeps_reduceItems {f : Callee} {items : List Value} (hf : f.Sound m defs)
    (hi : ∀ v ∈ items, v.MadeOf m) (hat : Inside defs E scope) :
    SettlesIn F m P (Value.Tracked m)
      fun i => reduceItems (.variant (fault i) bind) (ev i) f scope items := by
  cases items with
  | nil => exact keeps_callee hdefs hbind hev hf (List.forall_mem_nil _) hat
  | cons v rest =>
    obtain ⟨hv, hr⟩ := List.forall_mem_cons.1 hi
    exact keeps_reduceFrom hdefs hbind hev hf hv hr hat

theorem handles_reduce :
    Handles F m defs P E C fun i => reduce (.variant (fault i) bind) (ev i) := by
  intro args env scope ha hat
  refine .ite (fun _ => .ret .unknown) fun _ => (keeps_call hev.parts ha hat).bind fun o ho => ?_
  match o, ho with
  | none, _ => exact .ret .unknown
  | some (_, []), _ => exact .ret .unknown
  | some (f, seq :: more), ho =>
    obtain ⟨hf, hvs⟩ := ho _ rfl
    obtain ⟨hseq, hmore⟩ := List.forall_mem_cons.1 hvs
    refine .withResult hseq.asSequence (fun items hitems => ?_) (.ret .unknown)
    split
    · exact keeps_reduceItems hdefs hbind hev hf hitems hat
    · rename_i init
      refine keeps_reduceItems hdefs hbind hev hf (List.forall_mem_cons.2 ⟨?_, hitems⟩) hat
      exact hmore init (by simp)
    · exact .ret .unknown

end Mapping

end PatternLint
