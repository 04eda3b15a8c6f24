import PatternLint.Proofs.StackedFrames

/-! Variables that are bound in turn. A form that binds several of them, each first value seeing the
variables before it, comes to the same as forms inside one another that bind one each, where there
are no functions that could tell the frames of the one from those of the others. -/

namespace PatternLint

open Evaluation

/-- The form `(let* BINDINGS BODY ...)`. -/
def letStarOf (bindings body : List Value) : Value :=
  .list (.sym "let*" :: Value.ofList bindings :: body)

/-- The form `(let (BINDING) BODY ...)`. -/
def letOf (binding : Value) (body : List Value) : Value :=
  .list (.sym "let" :: .list [binding] :: body)

/-- The form `(progn BODY ...)`. -/
def prognOf (body : List Value) : Value :=
  .list (.sym "progn" :: body)

/-- A body inside forms that bind one variable each. -/
def nestedForms (body : List Value) : List Value → List Value
  | [] => body
  | binding :: rest => [letOf binding (nestedForms body rest)]

/-- The form `(let (B1) (let (B2) ... (let (BN) BODY ...)))`. -/
def nestedLet (body : List Value) : List Value → Value
  | [] => prognOf body
  | binding :: rest => letOf binding (nestedForms body rest)

theorem nestedForms_append (body : List Value) (bindings : List Value) (last : Value) :
    nestedForms body (bindings ++ [last]) = nestedForms [letOf last body] bindings := by
  induction bindings with
  | nil => rfl
  | cons binding rest ih => rw [List.cons_append, nestedForms, nestedForms, ih]

theorem nestedForms_bare {body bindings : List Value} (hbody : ∀ form ∈ body, form.Bare)
    (hbindings : ∀ binding ∈ bindings, binding.Bare) :
    ∀ form ∈ nestedForms body bindings, form.Bare := by
  induction bindings with
  | nil => exact hbody
  | cons binding rest ih =>
    obtain ⟨hb, hr⟩ := List.forall_mem_cons.1 hbindings
    simpa [nestedForms, letOf, hb] using ih hr

variable {p : Policy} {ev : Evaluator} {depth depth' : Nat} {env frame n : FrameId}
  {scope inner : Scope} {s s' t t' u : Store} {v v' init binding : Value} {name : String}
  {bs : List (String × Value)} {body bindings : List Value} {fault : Fault}

section Steps

/-- The store when a frame was made inside of `env`. -/
def Store.framed (s : Store) (env : FrameId) : Store :=
  { s with frames := s.frames.push ⟨.ofList [], some env⟩ }

theorem bindings?_ofList : bindings? (Value.ofList bindings) = bindings.mapM binding? := by
  cases bindings <;> rfl

theorem letStar_apply (hbs : bindings.mapM binding? = some bs) :
    evalBy p (depth + 1) (letStarOf bindings body) env scope s =
      (bindInTurn p (evalBy p depth) s.frames.size scope bs >>= fun inner =>
        (evalBy p depth).body body s.frames.size inner) (s.framed env) := by
  rw [letStarOf, evalBy_form rfl]
  simp only [SpecialForm.run, letStarForm, bindings?_ofList, hbs]
  rfl

theorem let_apply (hp : ∀ ev, p.operand ev = ev) (hb : binding? binding = some (name, init)) :
    evalBy p (depth + 1) (letOf binding body) env scope s =
      (evalBy p depth init env scope >>= fun v =>
        Eval.newFrame (some env) [(name, v)] >>= fun frame =>
          (evalBy p depth).body body frame (scope.binding [name])) s := by
  rw [letOf, evalBy_form rfl]
  simp [SpecialForm.run, letForm, bindings?, hb, hp, Evaluator.operands]

theorem bindInTurn_append (hp : ∀ ev, p.operand ev = ev) :
    bindInTurn p ev frame scope (bs ++ [(name, init)]) =
      bindInTurn p ev frame scope bs >>= fun inner =>
        ev init frame inner >>= fun v =>
          Eval.define frame name v >>= fun _ => pure (inner.binding [name]) := by
  induction bs generalizing scope with
  | nil => simp [bindInTurn, hp]
  | cons b rest ih => simp [bindInTurn, hp, ih]

theorem bindInTurn_scope (h : bindInTurn p ev frame scope bs s = (.ok inner, t)) :
    inner.root = scope.root ∧ inner.defs = scope.defs := by
  induction bs generalizing scope s with
  | nil =>
    cases h
    exact ⟨rfl, rfl⟩
  | cons b rest ih =>
    obtain ⟨v, u, -, h⟩ := Eval.bind_eq_ok h
    obtain ⟨_, u', -, h⟩ := Eval.bind_eq_ok h
    have hrest := ih h
    exact hrest

end Steps

/-- Runs that end with the same value in stores that agree below `n`, or with faults. -/
inductive SameEnd (n : Nat) : Except Fault Value × Store → Except Fault Value × Store → Prop
  | value {v : Value} {t t' : Store} (h : t.AgreesBelow n t') : SameEnd n (.ok v, t) (.ok v, t')
  | fault {f f' : Fault} {t t' : Store} : SameEnd n (.error f, t) (.error f', t')

theorem SameEnd.of_first {r : Except Fault Value × Store} (h : SameEnd n (.ok v, t) r) :
    ∃ t', r = (.ok v, t') ∧ t.AgreesBelow n t' := by
  cases h with
  | value h => exact ⟨_, rfl, h⟩

theorem SameEnd.of_second {r : Except Fault Value × Store} (h : SameEnd n r (.ok v, t')) :
    ∃ t, r = (.ok v, t) ∧ t.AgreesBelow n t' := by
  cases h with
  | value h => exact ⟨_, rfl, h⟩

section Ends

open Region

variable (hdefs : scope.defs.Bare)
include hdefs

/-- What two runs of a body agree on comes to the same if the first begins without functions. -/
theorem SameEnd.of_agrees {c : Labels} {r : Except Fault Value × Store} (hs : everywhere.Tidy s)
    (henv : env < s.frames.size) (hbody : ∀ form ∈ body, form.Bare)
    (hr : Agrees (Matches c) ((evalBy .strict depth).body body env scope s).1 r.1)
    (hvalues : ∀ id < n, ∀ name, Same c
      (((evalBy .strict depth).body body env scope s).2.frames.valueIn? name id)
      (r.2.frames.valueIn? name id))
    (hglobals : ∀ name, Option.Rel (Global.Same False c)
      (((evalBy .strict depth).body body env scope s).2.globals.get? name)
      (r.2.globals.get? name)) :
    SameEnd n ((evalBy .strict depth).body body env scope s) r := by
  rcases hrun : (evalBy .strict depth).body body env scope s with ⟨e, t⟩
  obtain ⟨e', t'⟩ := r
  rw [hrun] at hr hvalues hglobals
  cases hr with
  | error => exact .fault
  | ok hv =>
    obtain ⟨ht, hb⟩ := body_bare hdefs hs henv hbody hrun
    rw [hb.plain.eq hv]
    exact .value (.of_same ht hvalues hglobals)

open Simulation in
/-- A frame without variables makes no difference. -/
theorem framed_sameEnd (hs : s.FunctionFree) (henv : env < s.frames.size)
    (hroot : scope.root < s.frames.size) (hbody : ∀ form ∈ body, form.Bare) (depth : Nat) :
    SameEnd s.frames.size
      ((evalBy .strict depth).body body s.frames.size scope (s.framed env))
      ((evalBy .strict depth).body body env scope s) := by
  let S := paired (.same False) .none .strict .strict SameScope never
  have hS : S.Lockstep :=
    paired_lockstep (plain_aligned_of Policy.refusal Policy.refusal id) fun _ h => h.elim
  have hev : S.Follows (evalBy .strict depth) (evalBy .strict depth) :=
    evalBy_follows hS (.inl ⟨rfl, rfl⟩)
  have hseen : (s.inside fun id => id < s.frames.size).labels.frames env env := .inl ⟨rfl, henv⟩
  obtain ⟨w, hw, -, hshadow, hentered⟩ := Store.Alike.newShadow hs.encloses hseen
  have hat : S.At (w, ()) s.frames.size env scope scope :=
    ⟨.inr hshadow, hw.twins ⟨rfl, hroot⟩, rfl, hdefs.isPlain⟩
  have hforms : S.AllKnown (w, ()) body body :=
    List.forall₂_same.2 fun form hform => (hbody form hform).plain.matches _
  have hsim := Simulation.handles_body hS.toSound hev hforms hat
  obtain ⟨w', hw', ⟨ht, -, hglobals⟩, hr⟩ := hsim.agrees id (fun _ h => h) (fun _ h => h)
    ⟨hentered.bare, Fence.none_keeps _ _ _, hentered.globals⟩
  refine .of_agrees hdefs ?_ ?_ hbody hr (fun id hid name => ?_) hglobals
  · exact hs.tidy.push (List.forall_mem_nil _) fun _ _ => .inr (Nat.zero_le _)
  · rw [Store.framed, Array.size_push]
    exact Nat.lt_succ_self _
  · obtain ⟨f, f', hf, hf', halike⟩ := ht.twins (hw'.1.twins (hw.twins ⟨rfl, hid⟩))
    rw [Frames.valueIn?, Frames.valueIn?]
    exact hf ▸ hf' ▸ halike.vars.lookup name

open Simulation in
/-- A body sees the same variables in both. -/
theorem stacked_sameEnd (hu : everywhere.Tidy u) (hv : v.Bare)
    (henv : u.frames.Inside n (some env)) (hinside : ∀ i < n, ∃ o, u.frames.Inside i o)
    (hroot : scope.root < n) (hbody : ∀ form ∈ body, form.Bare) (depth : Nat) :
    SameEnd n
      ((evalBy .strict depth).body body n scope { u with frames := u.frames.define n name v })
      ((evalBy .strict depth).body body u.frames.size scope
        { u with frames := u.frames.push ⟨.ofList [(name, v)], some n⟩ }) := by
  let S := stacked n u.frames.size
  have hS : S.Lockstep := stacked_lockstep n u.frames.size
  have hev : S.Follows (evalBy .strict depth) (evalBy .strict depth) :=
    evalBy_follows hS (.inl ⟨rfl, rfl⟩)
  let w : Pairing := .stack n u.frames.size u.closures
  have hat : S.At w n u.frames.size scope scope :=
    ⟨.inr ⟨rfl, rfl⟩, ⟨rfl, hroot⟩, rfl, hdefs.isPlain⟩
  have hforms : S.AllKnown w body body :=
    List.forall₂_same.2 fun form hform => (hbody form hform).plain.matches _
  have hsim := Simulation.handles_body hS.toSound hev hforms hat
  obtain ⟨w', hw, ht, hr⟩ := hsim.agrees id (fun _ h => h) (fun _ h => h)
    (stacked_start hu hv henv hinside)
  refine .of_agrees hdefs (hu.define hv n name) ?_ hbody hr (fun id hid => ?_) ht.globals
  · rw [Frames.size_define]
    exact henv.lt
  · exact (ht.twins (Pairing.Grows.twins hw ⟨rfl, hid⟩)).values

end Ends

/-- The value and the store that `let*` with these bindings comes to, given enough depth. -/
def InTurn (bs : List (String × Value)) (body : List Value) (env : FrameId)
    (scope : Scope) (s : Store) (v : Value) (t : Store) : Prop :=
  ∃ depth inner u,
    bindInTurn .strict (evalBy .strict depth) s.frames.size scope bs (s.framed env) =
      (.ok inner, u) ∧
    (evalBy .strict depth).body body s.frames.size inner u = (.ok v, t)

/-- If one of the two comes to a value, so does the other, and the stores agree below `n`. -/
structure SameValues (n : Nat) (P P' : Value → Store → Prop) : Prop where
  first : ∀ v t, P v t → ∃ t', P' v t' ∧ t.AgreesBelow n t'
  second : ∀ v t', P' v t' → ∃ t, P v t ∧ t.AgreesBelow n t'

namespace SameValues

variable {P P' P'' : Value → Store → Prop}

theorem of_iff (h : ∀ v t, P v t ↔ P' v t) (n : Nat) : SameValues n P P' :=
  ⟨fun v t hv => ⟨t, (h v t).1 hv, .refl n t⟩, fun v t hv => ⟨t, (h v t).2 hv, .refl n t⟩⟩

theorem trans (h : SameValues n P P') (h' : SameValues n P' P'') : SameValues n P P'' where
  first v t hv := by
    obtain ⟨t', hv, ht⟩ := h.first v t hv
    obtain ⟨t'', hv, ht'⟩ := h'.first v t' hv
    exact ⟨t'', hv, ht.trans ht'⟩
  second v t'' hv := by
    obtain ⟨t', hv, ht'⟩ := h'.second v t'' hv
    obtain ⟨t, hv, ht⟩ := h.second v t' hv
    exact ⟨t, hv, ht.trans ht'⟩

end SameValues

section Turns

theorem letStar_yields (hbs : bindings.mapM binding? = some bs) :
    Yields (letStarOf bindings body) env scope s v t ↔ InTurn bs body env scope s v t := by
  rw [yields_iff]
  constructor
  · rintro ⟨_ | depth, h⟩
    · cases h
    · rw [letStar_apply hbs] at h
      obtain ⟨inner, u, hinner, h⟩ := Eval.bind_eq_ok h
      exact ⟨depth, inner, u, hinner, h⟩
  · rintro ⟨depth, inner, u, hinner, h⟩
    refine ⟨depth + 1, ?_⟩
    rw [letStar_apply hbs]
    exact Eval.bind_eq_ok_iff.2 ⟨inner, u, hinner, h⟩

theorem progn_yields : Yields (prognOf body) env scope s v t ↔
    ∃ depth, (evalBy .strict depth).body body env scope s = (.ok v, t) := by
  rw [yields_iff]
  constructor
  · rintro ⟨_ | depth, h⟩
    · cases h
    · rw [prognOf, evalBy_form rfl] at h
      exact ⟨depth, h⟩
  · rintro ⟨depth, h⟩
    refine ⟨depth + 1, ?_⟩
    rw [prognOf, evalBy_form rfl]
    exact h

theorem let_eq_ok (hb : binding? binding = some (name, init)) :
    evalBy .strict (depth + 1) (letOf binding body) env scope s = (.ok v, t) ↔
      ∃ x u, evalBy .strict depth init env scope s = (.ok x, u) ∧
        (evalBy .strict depth).body body u.frames.size (scope.binding [name])
          { u with frames := u.frames.push ⟨.ofList [(name, x)], some env⟩ } = (.ok v, t) := by
  rw [let_apply (fun _ => rfl) hb, Eval.bind_eq_ok_iff]
  rfl

theorem bindInTurn_append_eq_ok :
    bindInTurn .strict ev frame scope (bs ++ [(name, init)]) s = (.ok inner, t) ↔
      ∃ before u x u', bindInTurn .strict ev frame scope bs s = (.ok before, u) ∧
        ev init frame before u = (.ok x, u') ∧ inner = before.binding [name] ∧
        t = { u' with frames := u'.frames.define frame name x } := by
  rw [bindInTurn_append fun _ => rfl, Eval.bind_eq_ok_iff]
  constructor
  · rintro ⟨before, u, hbefore, h⟩
    obtain ⟨x, u', hx, h⟩ := Eval.bind_eq_ok h
    cases h
    exact ⟨before, u, x, u', hbefore, hx, rfl, rfl⟩
  · rintro ⟨before, u, x, u', hbefore, hx, rfl, rfl⟩
    exact ⟨before, u, hbefore, Eval.bind_eq_ok_iff.2 ⟨x, u', hx, rfl⟩⟩

end Turns

section Nesting

variable (hs : s.FunctionFree) (hdefs : scope.defs.Bare) (henv : env < s.frames.size)
  (hroot : scope.root < s.frames.size)
include hs hdefs henv hroot

/-- The last variable may be bound in the frame of the other ones or in one of its own. -/
theorem bound_sameEnd (name : String) (hbs : ∀ b ∈ bs, b.2.Bare) (hinit : init.Bare)
    (hbody : ∀ form ∈ body, form.Bare)
    (hinner : bindInTurn .strict (evalBy .strict depth) s.frames.size scope bs (s.framed env) =
      (.ok inner, t))
    (hv : evalBy .strict depth init s.frames.size inner t = (.ok v, u)) (depth' : Nat) :
    SameEnd s.frames.size
      ((evalBy .strict depth').body body s.frames.size (inner.binding [name])
        { u with frames := u.frames.define s.frames.size name v })
      ((evalBy .strict depth').body body u.frames.size (inner.binding [name])
        { u with frames := u.frames.push ⟨.ofList [(name, v)], some s.frames.size⟩ }) := by
  obtain ⟨hroot', hdefs'⟩ := bindInTurn_scope hinner
  have hbare : inner.defs.Bare := hdefs' ▸ hdefs
  have hentered : Region.everywhere.Tidy (s.framed env) :=
    hs.tidy.push (List.forall_mem_nil _) fun _ _ => .inr (Nat.zero_le _)
  have hsize : s.frames.size < (s.framed env).frames.size := by
    rw [Store.framed, Array.size_push]
    exact Nat.lt_succ_self _
  obtain ⟨hgrown, ht⟩ := bindInTurn_bare hdefs hentered hsize hbs hinner
  obtain ⟨hgrown', hu, hvbare⟩ :=
    strict_bare hbare ht (Nat.lt_of_lt_of_le hsize hgrown.size) hinit hv
  have hall := hgrown.trans hgrown'
  have hbinding : (inner.binding [name]).defs.Bare := hbare
  have hhere : u.frames.Inside s.frames.size (some env) :=
    (Frames.Inside.push_self s.frames [] fun o ho => by cases ho; exact henv).grown hall
  refine stacked_sameEnd hbinding hu hvbare hhere (fun i hi => ?_) ?_ hbody depth'
  · have hf : s.frames[i]? = some s.frames[i] := Array.getElem?_eq_getElem hi
    have hin : s.frames.Inside i s.frames[i].outer := ⟨by rw [hf]; rfl, hs.inside i _ hf⟩
    exact ⟨_, (hin.push _).grown hall⟩
  · exact hroot' ▸ hroot

theorem splitLast (hbs : ∀ b ∈ bs, b.2.Bare) (hinit : init.Bare) (hbody : ∀ form ∈ body, form.Bare)
    (hb : binding? binding = some (name, init)) :
    SameValues s.frames.size (InTurn (bs ++ [(name, init)]) body env scope s)
      (InTurn bs [letOf binding body] env scope s) where
  first v t := by
    rintro ⟨depth, inner, u, hinner, hbody'⟩
    obtain ⟨before, r, x, r', hbefore, hx, rfl, rfl⟩ := bindInTurn_append_eq_ok.1 hinner
    have hend := bound_sameEnd hs hdefs henv hroot name hbs hinit hbody hbefore hx depth
    rw [hbody'] at hend
    obtain ⟨t', hrun, h⟩ := hend.of_first
    refine ⟨t', ⟨depth + 1, before, r, ?_, (let_eq_ok hb).2 ⟨x, r', hx, hrun⟩⟩, h⟩
    exact bindInTurn_deeper hbefore (Nat.le_succ depth) Policy.refusal
  second v t' := by
    rintro ⟨_ | depth, before, r, hbefore, h⟩
    · cases h
    obtain ⟨x, r', hx, hbody'⟩ := (let_eq_ok hb).1 h
    -- the form for the last value was evaluated at a lesser depth than those before it
    have hx : evalBy .strict (depth + 1) init s.frames.size before r = (.ok x, r') :=
      strict_deeper hx (Nat.le_succ depth) Policy.refusal
    have hend := bound_sameEnd hs hdefs henv hroot name hbs hinit hbody hbefore hx depth
    rw [hbody'] at hend
    obtain ⟨t, hrun, h⟩ := hend.of_second
    refine ⟨t, ⟨depth + 1, _, _, ?_, body_deeper hrun (Nat.le_succ depth) Policy.refusal⟩, h⟩
    exact bindInTurn_append_eq_ok.2 ⟨before, r, x, r', hbefore, hx, rfl, rfl⟩

theorem dropEmpty (hbody : ∀ form ∈ body, form.Bare) :
    SameValues s.frames.size (InTurn [] body env scope s) (Yields (prognOf body) env scope s) where
  first v t := by
    rintro ⟨depth, inner, u, hinner, h⟩
    cases hinner
    have hend := framed_sameEnd hdefs hs henv hroot hbody depth
    rw [h] at hend
    obtain ⟨t', hrun, h⟩ := hend.of_first
    exact ⟨t', progn_yields.2 ⟨depth, hrun⟩, h⟩
  second v t' h := by
    obtain ⟨depth, h⟩ := progn_yields.1 h
    have hend := framed_sameEnd hdefs hs henv hroot hbody depth
    rw [h] at hend
    obtain ⟨t, hrun, h⟩ := hend.of_second
    exact ⟨t, ⟨depth, scope, s.framed env, rfl, hrun⟩, h⟩

/-- The variables may be bound in the frame of the first ones, or in one frame each. -/
theorem inTurn_nested (hwell : ∀ b ∈ bindings, (binding? b).isSome) (hbare : ∀ b ∈ bindings, b.Bare)
    (hbody : ∀ form ∈ body, form.Bare) :
    ∃ bs, bindings.mapM binding? = some bs ∧ (∀ b ∈ bs, b.2.Bare) ∧
      SameValues s.frames.size (InTurn bs body env scope s)
        (InTurn [] (nestedForms body bindings) env scope s) := by
  induction bindings using List.reverseRecOn generalizing body with
  | nil => exact ⟨[], rfl, List.forall_mem_nil _, .of_iff (fun _ _ => Iff.rfl) _⟩
  | append_singleton rest last ih =>
    obtain ⟨hwell, hlast⟩ := List.forall_mem_append.1 hwell
    obtain ⟨hbare, hlast'⟩ := List.forall_mem_append.1 hbare
    obtain ⟨⟨name, init⟩, hb⟩ := Option.isSome_iff_exists.1 (hlast last List.mem_cons_self)
    have hlast : last.Bare := hlast' last List.mem_cons_self
    have hinit : init.Bare := of_binding? Value.bare_nil (fun _ => Value.bare_list.1) hlast hb
    have hform : ∀ form ∈ [letOf last body], form.Bare := by
      simpa [letOf, hlast] using hbody
    obtain ⟨bs, hmap, hbs, hrest⟩ := ih hwell hbare hform
    refine ⟨bs ++ [(name, init)], ?_, List.forall_mem_append.2 ⟨hbs, by simpa using hinit⟩, ?_⟩
    · simp [List.mapM_append, hmap, hb]
    · rw [nestedForms_append]
      exact (splitLast hs hdefs henv hroot hbs hinit hbody hb).trans hrest

end Nesting

/-- Whatever one of them comes to with enough depth, the other one comes to as well. -/
theorem letStar_sameValues (hwell : ∀ b ∈ bindings, (binding? b).isSome)
    (hbindings : ∀ b ∈ bindings, b.Bare) (hbody : ∀ form ∈ body, form.Bare) (hs : s.FunctionFree)
    (hdefs : scope.defs.Bare) (henv : env < s.frames.size) (hroot : scope.root < s.frames.size) :
    SameValues s.frames.size (Yields (letStarOf bindings body) env scope s)
      (Yields (nestedLet body bindings) env scope s) := by
  obtain ⟨bs, hbs, -, hturns⟩ := inTurn_nested hs hdefs henv hroot hwell hbindings hbody
  have hforms := nestedForms_bare hbody hbindings
  have hprogn : SameValues s.frames.size (Yields (letStarOf bindings body) env scope s)
      (Yields (prognOf (nestedForms body bindings)) env scope s) :=
    (SameValues.of_iff (fun _ _ => letStar_yields hbs) _).trans
      (hturns.trans (dropEmpty hs hdefs henv hroot hforms))
  cases bindings with
  | nil => exact hprogn
  | cons b rest =>
    refine hprogn.trans (.of_iff (fun v t => ?_) _)
    rw [progn_yields, yields_iff]
    rfl

/-- Evaluations that do not come to their bounds end as those with enough depth. -/
theorem SameValues.sameEnd {expr expr' : Value}
    (h : SameValues n (Yields expr env scope s) (Yields expr' env scope s))
    (hdeep : InDepth depth expr env scope s) (hdeep' : InDepth depth' expr' env scope s) :
    SameEnd n (eval depth expr env scope s) (eval depth' expr' env scope s) := by
  rcases hrun : eval depth expr env scope s with ⟨f | v, t⟩
  · rcases hrun' : eval depth' expr' env scope s with ⟨f' | v', t'⟩
    · exact .fault
    · obtain ⟨t, hv, -⟩ := h.second v' t' (hdeep'.yields hrun')
      cases hrun.symm.trans (hdeep.eval_of_yields hv)
  · obtain ⟨t', hv, ht⟩ := h.first v t (hdeep.yields hrun)
    rw [hdeep'.eval_of_yields hv]
    exact .value ht

/-- `let*` is nested `let`: where no functions are about, the two come to the same value and leave
the same in the frames around them and in the global variables. The nested forms take more of the
depth, but neither evaluation comes to its bound. -/
theorem letStar_nested (bindings body : List Value) (env : FrameId) (scope : Scope) (s : Store)
    (depth depth' : Nat) (hwell : ∀ b ∈ bindings, (binding? b).isSome)
    (hbindings : ∀ b ∈ bindings, b.Bare) (hbody : ∀ form ∈ body, form.Bare) (hs : s.FunctionFree)
    (hdefs : scope.defs.Bare) (henv : env < s.frames.size) (hroot : scope.root < s.frames.size)
    (hdeep : InDepth depth (letStarOf bindings body) env scope s)
    (hdeep' : InDepth depth' (nestedLet body bindings) env scope s) :
    SameEnd s.frames.size (eval depth (letStarOf bindings body) env scope s)
      (eval depth' (nestedLet body bindings) env scope s) :=
  (letStar_sameValues hwell hbindings hbody hs hdefs henv hroot).sameEnd hdeep hdeep'

/-- A frame with the variable `y`. -/
def frameOfY : Store :=
  ⟨#[⟨⟨[("y", .int 10)]⟩, none⟩], 0, .empty⟩

theorem frameOfY_functionFree : frameOfY.FunctionFree where
  values := by
    rintro (_ | id) f hf b hb
    · cases hf
      rw [List.mem_singleton.1 hb]
      exact Value.bare_int
    · cases hf
  inside := by
    rintro (_ | id) f hf o ho
    · cases hf
      cases ho
    · cases hf
  globals _ _ h := nomatch h

/-- `x` is bound twice, and `y` around it is assigned: `((x 1) (x (+ x 1)) (z (setq y x)))`. -/
def boundTwice : List Value :=
  [.list [.sym "x", .int 1], .list [.sym "x", .list [.sym "+", .sym "x", .int 1]],
    .list [.sym "z", .list [.sym "setq", .sym "y", .sym "x"]]]

theorem boundTwice_nested :
    let scope : Scope := ⟨.empty, 0, ["y"], [], [], 100⟩
    let body : List Value :=
      [.list [.sym "setq", .sym "x", .int 7], .list [.sym "+", .sym "y", .sym "x"]]
    (∀ b ∈ boundTwice, (binding? b).isSome) ∧ frameOfY.FunctionFree ∧
      ∃ t t', eval 12 (letStarOf boundTwice body) 0 scope frameOfY = (.ok (.int 9), t) ∧
        eval 12 (nestedLet body boundTwice) 0 scope frameOfY = (.ok (.int 9), t') ∧
        t.frames.holdsInt "y" 0 2 ∧ t'.frames.holdsInt "y" 0 2 := by
  intro scope body
  have hwell : ∀ b ∈ boundTwice, (binding? b).isSome := by
    simp [boundTwice, binding?]
  have hbindings : ∀ b ∈ boundTwice, b.Bare := by
    simp [boundTwice]
  have hbody : ∀ form ∈ body, form.Bare := by
    simp [body]
  have hdefs : scope.defs.Bare := ⟨nofun, nofun, nofun⟩
  obtain ⟨t, hrun⟩ : ∃ t, evalBy .strict 12 (letStarOf boundTwice body) 0 scope frameOfY =
      (.ok (.int 9), t) := givesInt_ok (by decide +kernel)
  obtain ⟨t', hrun'⟩ : ∃ t, evalBy .strict 12 (nestedLet body boundTwice) 0 scope frameOfY =
      (.ok (.int 9), t) := givesInt_ok (by decide +kernel)
  have hy : (evalBy .strict 12 (letStarOf boundTwice body) 0 scope
      frameOfY).2.frames.holdsInt "y" 0 2 := by
    decide +kernel
  rw [hrun] at hy
  have hsame := letStar_nested boundTwice body 0 scope frameOfY 12 12 hwell hbindings hbody
    frameOfY_functionFree hdefs (by decide) (by decide) (.of_ok hrun) (.of_ok hrun')
  have h := strict_deeper hrun (Nat.le_refl 12) .tooDeep
  rw [show eval 12 (letStarOf boundTwice body) 0 scope frameOfY = _ from h] at hsame
  obtain ⟨t', h', ht⟩ := hsame.of_first
  refine ⟨hwell, frameOfY_functionFree, t, t', h, h', hy, ?_⟩
  rwa [Frames.holdsInt, ← ht.values 0 Nat.one_pos]

/-- A hundred times the same variable. -/
def boundOften : List Value :=
  List.replicate 100 (.list [.sym "x", .int 1])

/-- Inside a hundred forms there is no room any more for the body, for which
there is room inside one. -/
theorem boundOften_differs :
    let body := [wrapped 950 (.sym "x")]
    (∀ b ∈ boundOften, (binding? b).isSome) ∧
      (∃ t, evaluate (letStarOf boundOften body) none [] .empty 1000 .empty = (.ok (.int 1), t)) ∧
      (evaluate (nestedLet body boundOften) none [] .empty 1000 .empty).1 = .ok .unknown := by
  refine ⟨fun b hb => ?_, givesInt_ok (by decide +kernel), givesUnknown_ok (by decide +kernel)⟩
  rw [List.eq_of_mem_replicate hb]
  rfl

end PatternLint
