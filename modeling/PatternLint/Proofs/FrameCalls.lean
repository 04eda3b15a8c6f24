import Mathlib.Data.List.Induction
import PatternLint.Proofs.FrameTemplates

/-! Bindings and calls without functions leave the frames around them as they are. A new variable is
that of a new frame, so assigning it in place changes no frame that is kept. -/

namespace PatternLint

open Evaluation

namespace Region

variable {R : Region} {ev : Evaluator} {w : Store} {env : FrameId} {scope : Scope}
  {args : List Value}

/-- A frame that is made of bindings binds their names. -/
theorem isSome_valueIn?_ofList {s : Store} {id : FrameId} {outer : Option FrameId}
    {bindings : List (String × Value)} {name : String}
    (hframe : s.frames[id]? = some ⟨.ofList bindings, outer⟩) (h : name ∈ bindings.map (·.1)) :
    (s.frames.valueIn? name id).isSome := by
  rw [Frames.valueIn?, hframe]
  exact (Table.contains_ofList bindings name).2 h

section Binding

theorem bindings_bare {v : Value} {bs : List (String × Value)} (hv : v.Bare)
    (h : bindings? v = some bs) : ∀ b ∈ bs, b.2.Bare :=
  of_bindings? Value.bare_nil (fun _ => Value.bare_list.1) hv h

variable (hev : R.Evaluates ev)
include hev

/-- Values are found outside of the new frame. -/
theorem handles_letForm : R.Handles (letForm .plain ev) := by
  intro w args env scope ha hat
  match args, ha with
  | [], _ => exact gives_unknown
  | head :: forms, ha =>
    obtain ⟨hh, hf⟩ := List.forall_mem_cons.1 ha
    simp only [letForm]
    cases hbs : bindings? head with
    | none => exact gives_unknown
    | some bs =>
      have hinits : ∀ form ∈ bs.map (·.2), form.Bare := by
        intro form hform
        obtain ⟨b, hb, rfl⟩ := List.mem_map.1 hform
        exact bindings_bare hh hbs b hb
      refine .bind (goes_operands hev hinits hat) fun t values ht hvalues => ?_
      have hat := hat.later ht
      refine .bind (newFrame (fun b hb => hvalues.2 _ (List.of_mem_zip hb).2) ?_) ?_
      · rintro _ ⟨⟩
        exact hat.sees
      · intro u frame hu hframe
        refine handles_body hev u forms frame _ hf ?_
        refine (hat.later hu).inside hframe.1 hframe.2 rfl fun name hname => ?_
        refine isSome_valueIn?_ofList hframe.2 ?_
        rwa [List.map_fst_zip (by simp [hvalues.1])]

/-- Each binding is added to the new frame and to the scope. -/
theorem goes_bindInTurn {bs : List (String × Value)} {frame : FrameId} (hb : ∀ b ∈ bs, b.2.Bare)
    (hframe : R.start ≤ frame) (hat : R.At w frame scope) :
    R.evaluation.Goes w (fun t inner => R.At t frame inner)
      (bindInTurn .plain ev frame scope bs) := by
  induction bs generalizing w scope with
  | nil => exact .ret fun _ => hat.later
  | cons b rest ih =>
    obtain ⟨hb, hr⟩ := List.forall_mem_cons.1 hb
    refine .bind (hev w b.2 frame scope hb hat) fun t v ht hv => ?_
    have hat := hat.later ht
    refine .bind (define (not_kept_of_le hframe) hv) fun u _ hu hbound => ?_
    have hat := hat.later hu
    exact ih hr (hat.binding hframe (hbound hat.lt))

theorem handles_letStarForm : R.Handles (letStarForm .plain ev) := by
  intro w args env scope ha hat
  match args, ha with
  | [], _ => exact gives_unknown
  | head :: forms, ha =>
    obtain ⟨hh, hf⟩ := List.forall_mem_cons.1 ha
    simp only [letStarForm]
    cases hbs : bindings? head with
    | none => exact gives_unknown
    | some bs =>
      refine .bind (newFrame (List.forall_mem_nil _) ?_) fun t frame ht hframe => ?_
      · rintro _ ⟨⟩
        exact hat.sees
      have hin : R.At t frame scope :=
        (hat.later ht).inside hframe.1 hframe.2 rfl (List.forall_mem_nil _)
      have hinits := bindings_bare hh hbs
      refine .bind (goes_bindInTurn hev hinits hframe.1 hin) fun u inner _ hinner => ?_
      exact handles_body hev u forms frame inner hf hinner

/-- What is assigned is a variable of a frame that may be changed, or none that can be seen. -/
theorem handles_setPairs {last : Value} (hl : last.Bare) : R.Handles (setPairs .plain ev last) := by
  intro w args env scope ha hat
  induction args using List.twoStepInduction generalizing w last with
  | nil => exact .give hl
  | singleton x => cases x <;> exact gives_unknown
  | cons_cons x form rest ih _ =>
    obtain ⟨_, ha⟩ := List.forall_mem_cons.1 ha
    obtain ⟨hf, hr⟩ := List.forall_mem_cons.1 ha
    cases x with
    | sym name =>
      refine .bind (hev w form env scope hf hat) fun t v ht hv => ?_
      have hat := hat.later ht
      exact .bind (assign hat hv) fun u _ hu _ => ih hv u hr (hat.later hu)
    | _ => exact gives_unknown

theorem handles_set : R.Handles (set .plain ev) := by
  intro w args env scope ha hat
  refine .ite (fun _ => ?_) fun _ => gives_unknown
  exact handles_setPairs hev Value.bare_nil w args env scope ha hat

theorem handles_push : R.Handles (push .plain ev) := by
  intro w args env scope ha hat
  match args, ha with
  | [], _ => exact gives_unknown
  | [form, target], ha =>
    cases target with
    | sym name =>
      refine .bind (hev w form env scope (ha form (by simp)) hat) fun t x ht hx => ?_
      have hat := hat.later ht
      refine .bind (hev t (.sym name) env scope (ha _ (by simp)) hat) fun u old hu hold => ?_
      have hnew :
          (if x.isUnknown || old.isUnknown then .unknown else Value.prepend [x] old).Bare := by
        split
        · exact Value.bare_unknown
        · exact .prepend (List.forall_mem_singleton.2 hx) hold
      exact .bind (assign (hat.later hu) hnew) fun _ _ _ _ => .give hnew
    | _ => exact gives_unknown
  | [x], _ => cases x <;> exact gives_unknown
  | _ :: x :: _ :: _, _ => cases x <;> exact gives_unknown

omit hev in
theorem parts_bare {old : Value} (h : old.Bare) :
    Returns (fun p => p.1.Bare ∧ p.2.Bare) (parts old) := by
  refine .ite (fun _ => .ok ⟨Value.bare_unknown, Value.bare_unknown⟩) fun _ => ?_
  exact h.car.bind fun _ hfirst => h.cdr.bind fun _ hrest => .ret ⟨hfirst, hrest⟩

theorem handles_pop : R.Handles (pop .plain ev) := by
  intro w args env scope ha hat
  match args, ha with
  | [], _ => exact gives_unknown
  | [target], ha =>
    cases target with
    | sym name =>
      refine .bind (hev w (.sym name) env scope (ha _ List.mem_cons_self) hat)
        fun t old ht hold => ?_
      have hgive : ∀ first rest : Value, first.Bare → rest.Bare → R.Gives t (do
          Evaluation.assign name rest env scope
          return first) :=
        fun first rest hf hr => .bind (assign (hat.later ht) hr) fun _ _ _ _ => .give hf
      exact .withResult (parts_bare hold) (fun p hp => hgive _ _ hp.1 hp.2)
        (hgive _ _ Value.bare_unknown Value.bare_unknown)
    | _ => exact gives_unknown
  | x :: _ :: _, _ => cases x <;> exact gives_unknown

end Binding

section Apply

theorem gives_callPrimitive {f : Primitive}
    (hf : ∀ args, (∀ a ∈ args, a.Bare) → Returns Value.Bare (f args))
    (ha : ∀ a ∈ args, a.Bare) : R.Gives w (callPrimitive f args) := by
  refine .ite (fun _ => gives_unknown) fun _ => ?_
  have hres := hf args ha
  generalize f args = r at hres
  cases r with
  | ok v => exact .give (hres v rfl)
  | error e => exact .ite (fun _ => gives_unknown) fun _ => .fail

/-- What is called where there are no functions but those of the text and primitives. -/
def Sound (defs : Definitions) : Callee → Prop
  | .closure .. => False
  | .defined name d => defs.functions.get? name = some d
  | .primitive f => ∀ args, (∀ a ∈ args, a.Bare) → Returns Value.Bare (f args)

/-- Bare values that are called name functions of the text or primitives. -/
theorem callee_sound {v : Value} {f : Callee} (hv : v.Bare) (h : callee? scope v = some f) :
    Sound scope.defs f := by
  unfold callee? at h
  split at h
  · exact (Value.not_bare_closure hv).elim
  · exact (Value.bare_sym.1 (Value.bare_list.1 hv _ List.mem_cons_self) rfl).elim
  · dsimp only at h
    split at h
    · rename_i hd
      cases h
      exact hd
    · obtain ⟨g, hg, rfl⟩ := Option.map_eq_some_iff.1 h
      exact fun _ => Primitive.bare_named hg
  · cases h

variable (hev : R.Evaluates ev)
include hev

/-- The frames of a definition lie apart from all others. -/
theorem gives_applyDefinition {d : Definition} (hd : d.Bare) (ha : ∀ a ∈ args, a.Bare)
    (hat : R.At w env scope) (name : String) :
    R.Gives w (applyDefinition .plain ev name d args scope) := by
  refine .ite (fun _ => gives_unknown) fun _ => ?_
  refine .bind (newFrame (List.forall_mem_nil _) nofun) fun t root _ hroot => ?_
  refine .bind (Q := fun _ bs => bs = LambdaList.bind d.formals args)
    (.give rfl) fun u bs _ hbs => ?_
  subst hbs
  refine .bind (newFrame (LambdaList.bind_bare ha) ?_) fun x frame _ hframe => ?_
  · rintro _ ⟨⟩
    exact .inr hroot.1
  refine handles_body hev x d.body frame _ hd.body ⟨hat.defs, not_kept_of_le hroot.1, .inr hframe.1,
    (Array.getElem?_eq_some_iff.1 hframe.2).1, fun n hn => ?_⟩
  refine safe_of_bound hframe.1 (isSome_valueIn?_ofList hframe.2 ?_)
  rw [LambdaList.map_fst_bind]
  exact hn

/-- The expansion is bare, so that it is code that may be evaluated in place. -/
theorem gives_expandMacro {d : Definition} (hd : d.Bare) (name : String) :
    R.Handles (expandMacro .plain ev name d) := by
  intro w args env scope ha hat
  refine .known (gives_applyDefinition hev hd ha hat name) (fun _ => Value.bare_unknown) ?_
  exact fun t v ht hv => hev t v env _ hv ((hat.later ht).expandingToo name)

/-- Whatever is called, its parameters are bound in frames of their own. -/
theorem gives_callee {f : Callee} (hf : Sound scope.defs f) (ha : ∀ a ∈ args, a.Bare)
    (hat : R.At w env scope) : R.Gives w (f.apply .plain ev args scope) := by
  cases f with
  | closure => exact hf.elim
  | defined name d => exact gives_applyDefinition hev (hat.defs.functions name d hf) ha hat name
  | primitive f => exact gives_callPrimitive hf ha

end Apply

section Mapping

theorem collect_bare {results : List Value} (c : Collection) (ha : ∀ a ∈ args, a.Bare)
    (hr : ∀ v ∈ results, v.Bare) : Returns Value.Bare (c.collect args results) := by
  cases c with
  | items => exact .ofItems hr
  | spliced =>
    refine Primitive.append_bare fun a h => ?_
    rcases List.mem_append.1 h with h | h
    · exact hr a h
    · rw [List.mem_singleton.1 h]
      exact Value.bare_nil
  | text => exact .after fun _ => .ite (fun _ => .error) fun _ => .ret Value.bare_str
  | kept whenTrue =>
    have hseq : (args.headD .nil).Bare := by
      cases args with
      | nil => exact Value.bare_nil
      | cons v _ => exact ha v List.mem_cons_self
    refine hseq.asSequence.bind fun items hitems => .ofItems fun v hv => ?_
    obtain ⟨p, hp, rfl⟩ := List.mem_map.1 hv
    exact hitems _ (List.of_mem_zip (List.mem_filter.1 hp).1).1

variable (hev : R.Evaluates ev)
include hev

/-- A function and its arguments, all of which have to be known. -/
theorem goes_call (ha : ∀ a ∈ args, a.Bare) (hat : R.At w env scope) :
    R.evaluation.Goes w (fun _ o => ∀ c ∈ o, Sound scope.defs c.1 ∧ ∀ v ∈ c.2, v.Bare)
      (call? ev args env scope) := by
  refine .bind (gives_knownOnto hev (List.forall_mem_nil _) ha hat) fun t o _ ho => ?_
  match o, ho with
  | none, _ => exact .give nofun
  | some [], _ => exact .give nofun
  | some (g :: values), ho =>
    obtain ⟨hg, hvalues⟩ := List.forall_mem_cons.1 (ho _ rfl)
    refine .give fun c hc => ?_
    obtain ⟨f, hf, rfl⟩ := Option.map_eq_some_iff.1 hc
    exact ⟨callee_sound hg hf, hvalues⟩

/-- Call by call, with bare results so far. -/
theorem gives_resultsOnto {f : Callee} {results : List Value} {calls : List (List Value)}
    (hf : Sound scope.defs f) (hr : ∀ v ∈ results, v.Bare) (hc : ∀ call ∈ calls, ∀ v ∈ call, v.Bare)
    (hat : R.At w env scope) : R.GivesAll w (resultsOnto .plain ev f results scope calls) := by
  induction calls generalizing w results with
  | nil =>
    refine .ret fun _ _ vs hvs v hv => ?_
    cases hvs
    exact hr v (List.mem_reverse.1 hv)
  | cons call rest ih =>
    obtain ⟨hcall, hrest⟩ := List.forall_mem_cons.1 hc
    refine .known (gives_callee hev hf hcall hat) (fun _ => nofun) fun t v ht hv => ?_
    exact ih (List.forall_mem_cons.2 ⟨hv, hr⟩) hrest (hat.later ht)

/-- What follows the results of calls, all of which have to be known. -/
theorem gives_results {f : Callee} {calls : List (List Value)} {k : List Value → Eval Value}
    (hf : Sound scope.defs f) (hc : ∀ call ∈ calls, ∀ v ∈ call, v.Bare) (hat : R.At w env scope)
    (hk : ∀ t vs, (∀ v ∈ vs, v.Bare) → R.Gives t (k vs)) :
    R.Gives w (results .plain ev f calls scope >>= fun
      | none => return .unknown
      | some vs => k vs) := by
  refine .bind (gives_resultsOnto hev hf (List.forall_mem_nil _) hc hat) fun t o _ ho => ?_
  cases o with
  | none => exact gives_unknown
  | some vs => exact hk t vs (ho vs rfl)

theorem handles_funcall : R.Handles (funcall .plain ev) := by
  intro w args env scope ha hat
  refine .bind (goes_call hev ha hat) fun t o ht ho => ?_
  match o, ho with
  | none, _ => exact gives_unknown
  | some (f, vs), ho =>
    obtain ⟨hf, hvs⟩ := ho _ rfl
    exact gives_callee hev hf hvs (hat.later ht)

theorem handles_mapOver (c : Collection) : R.Handles (mapOver .plain ev c) := by
  intro w args env scope ha hat
  refine .ite (fun _ => gives_unknown) fun _ => .bind (goes_call hev ha hat) fun t o ht ho => ?_
  match o, ho with
  | none, _ => exact gives_unknown
  | some (_, []), _ => exact gives_unknown
  | some (f, seq :: more), ho =>
    obtain ⟨hf, hvs⟩ := ho _ rfl
    refine .withResult (hvs seq List.mem_cons_self).asSequence
      (fun items hitems => ?_) gives_unknown
    have hcalls : ∀ call ∈ items.map ([·]), ∀ v ∈ call, v.Bare := by
      intro call hcall v hv
      obtain ⟨x, hx, rfl⟩ := List.mem_map.1 hcall
      rw [List.mem_singleton.1 hv]
      exact hitems x hx
    refine gives_results hev hf hcalls (hat.later ht) fun u vs hres => ?_
    exact .orUnknown (.ofExcept (collect_bare c hvs hres)) Value.bare_unknown

theorem handles_mapTogether : R.Handles (mapTogether .plain ev) := by
  intro w args env scope ha hat
  refine .ite (fun _ => gives_unknown) fun _ => .bind (goes_call hev ha hat) fun t o ht ho => ?_
  match o, ho with
  | none, _ => exact gives_unknown
  | some (f, vs), ho =>
    obtain ⟨hf, hvs⟩ := ho _ rfl
    have hseqs := Returns.mapM hvs fun v hv => hv.asSequence
    refine .withResult hseqs (fun lists hlists => ?_) gives_unknown
    refine gives_results hev hf (forall_transpose hlists) (hat.later ht) fun u vs hres => ?_
    exact .ofExcept (.ofItems hres)

theorem handles_applyForm : R.Handles (applyForm .plain ev) := by
  intro w args env scope ha hat
  refine .ite (fun _ => gives_unknown) fun _ => .bind (goes_call hev ha hat) fun t o ht ho => ?_
  match o, ho with
  | none, _ => exact gives_unknown
  | some (f, vs), ho =>
    obtain ⟨hf, hvs⟩ := ho _ rfl
    have hlast : (vs.getLastD .nil).Bare := by
      rw [List.getLastD_eq_getLast?]
      cases hget : vs.getLast? with
      | none => exact Value.bare_nil
      | some v => exact hvs v (List.mem_of_getLast? hget)
    refine .withResult hlast.asList (fun items hitems => ?_) gives_unknown
    refine gives_callee hev hf (fun a h => ?_) (hat.later ht)
    rcases List.mem_append.1 h with h | h
    · exact hvs a (List.dropLast_subset _ h)
    · exact hitems a h

/-- What is reduced so far stays bare. -/
theorem gives_reduceFrom {f : Callee} {acc : Value} {items : List Value} (hf : Sound scope.defs f)
    (hacc : acc.Bare) (hi : ∀ v ∈ items, v.Bare) (hat : R.At w env scope) :
    R.Gives w (reduceFrom .plain ev f scope acc items) := by
  induction items generalizing w acc with
  | nil => exact .give hacc
  | cons v rest ih =>
    obtain ⟨hv, hr⟩ := List.forall_mem_cons.1 hi
    have hargs : ∀ a ∈ [acc, v], a.Bare :=
      List.forall_mem_cons.2 ⟨hacc, List.forall_mem_singleton.2 hv⟩
    refine .known (gives_callee hev hf hargs hat) (fun _ => Value.bare_unknown)
      fun t acc ht hacc => ?_
    exact ih hacc hr (hat.later ht)

theorem gives_reduceItems {f : Callee} {items : List Value} (hf : Sound scope.defs f)
    (hi : ∀ v ∈ items, v.Bare) (hat : R.At w env scope) :
    R.Gives w (reduceItems .plain ev f scope items) := by
  cases items with
  | nil => exact gives_callee hev hf (List.forall_mem_nil _) hat
  | cons v rest =>
    obtain ⟨hv, hr⟩ := List.forall_mem_cons.1 hi
    exact gives_reduceFrom hev hf hv hr hat

theorem handles_reduce : R.Handles (reduce .plain ev) := by
  intro w args env scope ha hat
  refine .ite (fun _ => gives_unknown) fun _ => .bind (goes_call hev ha hat) fun t o ht ho => ?_
  have hat := hat.later ht
  match o, ho with
  | none, _ => exact gives_unknown
  | some (_, []), _ => exact gives_unknown
  | some (f, seq :: more), ho =>
    obtain ⟨hf, hvs⟩ := ho _ rfl
    obtain ⟨hseq, hmore⟩ := List.forall_mem_cons.1 hvs
    refine .withResult hseq.asSequence (fun items hitems => ?_) gives_unknown
    split
    · exact gives_reduceItems hev hf hitems hat
    · rename_i init
      refine gives_reduceItems hev hf (List.forall_mem_cons.2 ⟨?_, hitems⟩) hat
      exact hmore init (by simp)
    · exact gives_unknown

end Mapping

end Region

end PatternLint
