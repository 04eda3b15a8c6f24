import PatternLint.Proofs.FrameForms

/-! Quoted data, templates and structured regexps without functions leave the frames
around them as they are. -/

namespace PatternLint.Region

open Evaluation

variable {R : Region} {ev : Evaluator} {w : Store} {env : FrameId} {scope : Scope}

section Quote

theorem handles_quote : R.Handles quote := by
  intro w args env scope ha _
  match args, ha with
  | [], _ => exact gives_unknown
  | [v], ha =>
    refine .give ?_
    split
    · exact Value.bare_unknown
    · exact ha v List.mem_cons_self
  | _ :: _ :: _, _ => exact gives_unknown

/-- Without functions, what is quoted is data. -/
theorem handles_function : R.Handles function := by
  intro w args env scope ha _
  match args, ha with
  | [], _ => exact gives_unknown
  | [v], ha =>
    have hv := ha v List.mem_cons_self
    have hdata : ∀ formals body, v ≠ .list (lambdaMark :: formals :: body) := by
      rintro formals body rfl
      exact Value.bare_sym.1 (Value.bare_list.1 hv _ List.mem_cons_self) rfl
    rw [function.eq_2 env scope v hdata]
    refine .give ?_
    split
    · exact Value.bare_unknown
    · exact hv
  | _ :: _ :: _, _ =>
    simp only [function]
    exact gives_unknown

end Quote

section Template

variable (hev : R.Evaluates ev)
include hev

theorem gives_expand_all (env : FrameId) (scope : Scope) :
    (∀ template : Value, ∀ w, template.Bare → R.At w env scope →
      R.Gives w (expand ev env scope template)) ∧
    (∀ items : List Value, ∀ w, (∀ v ∈ items, v.Bare) → R.At w env scope →
      R.Gives w (expandList ev env scope items)) ∧
    ∀ out items : List Value, ∀ w, (∀ v ∈ out, v.Bare) → (∀ v ∈ items, v.Bare) → R.At w env scope →
      R.Gives w (expandItems ev env scope out items) := by
  apply expand.mutual_induct
  case case1 =>
    intro items ih w ht hat
    simp only [expand]
    exact ih w (Value.bare_list.1 ht) hat
  case case2 =>
    intro items ih w ht hat
    simp only [expand]
    refine .known (ih w (Value.bare_vec.1 ht) hat) (fun _ => Value.bare_unknown) fun t v _ hv => ?_
    exact .bind (.ofExcept hv.asList) fun _ vs _ hvs => .give (Value.bare_vec.2 hvs)
  case case3 =>
    intro items tail ih iht w ht hat
    obtain ⟨hitems, htail⟩ := Value.bare_dotted.1 ht
    simp only [expand]
    refine .bind (ih w hitems hat) fun t head ht hhead => ?_
    refine .bind (iht t htail (hat.later ht)) fun u rest _ hrest =>
      .ite (fun _ => gives_unknown) fun _ => ?_
    exact .bind (.ofExcept hhead.asList) fun _ vs _ hvs => .give (.prepend hvs hrest)
  case case4 =>
    intro v h1 h2 h3 w hv _
    simp only [expand.eq_4 _ env scope v h1 h2 h3]
    exact .give hv
  case case5 =>
    intro tail w _ _
    simp only [expandList]
    exact gives_unknown
  case case6 =>
    intro tail w _ _
    simp only [expandList]
    exact gives_unknown
  case case7 =>
    intro items h1 h2 ih w hi hat
    simp only [expandList.eq_3 _ env scope items h1 h2]
    exact ih w (List.forall_mem_nil _) hi hat
  case case8 =>
    intro out w ho _ _
    simp only [expandItems]
    exact .give (.ofList fun v hv => ho v (List.mem_reverse.1 hv))
  case case9 =>
    intro out form w ho hi hat
    simp only [expandItems]
    refine .bind (hev w form env scope (hi form (by simp)) hat) fun t tail _ htail => .give ?_
    split
    · exact Value.bare_unknown
    · exact .prepend (fun v hv => ho v (List.mem_reverse.1 hv)) htail
  case case10 =>
    intro out form rest ih w ho hi hat
    obtain ⟨hs, hr⟩ := List.forall_mem_cons.1 hi
    simp only [expandItems]
    have hform := Value.bare_list.1 hs form (by simp)
    refine .known (hev w form env scope hform hat) (fun _ => Value.bare_unknown) fun t v ht hv => ?_
    refine .withResult hv.asList (fun more hmore => ?_) gives_unknown
    refine ih more t (fun v hv => ?_) hr (hat.later ht)
    rcases List.mem_append.1 hv with hv | hv
    · exact hmore v (List.mem_reverse.1 hv)
    · exact ho v hv
  case case11 =>
    intro out item rest h1 h2 ih ihr w ho hi hat
    obtain ⟨hx, hr⟩ := List.forall_mem_cons.1 hi
    simp only [expandItems.eq_4 _ env scope out item rest h1 h2]
    refine .known (ih w hx hat) (fun _ => Value.bare_unknown) fun t v ht hv => ?_
    exact ihr v t (List.forall_mem_cons.2 ⟨hv, ho⟩) hr (hat.later ht)

theorem handles_template : R.Handles (template ev) := by
  intro w args env scope ha hat
  match args, ha with
  | [], _ => exact gives_unknown
  | [v], ha =>
    have hv := ha v List.mem_cons_self
    refine .bind ((gives_expand_all hev env scope).1 v w hv hat) fun t v _ hv => .give ?_
    split
    · exact Value.bare_nil
    · exact hv
  | _ :: _ :: _, _ => exact gives_unknown

end Template

section Regexps

theorem gives_written (r : Except Fault String) : R.Gives w (written r) := by
  cases r with
  | ok text => exact .give Value.bare_str
  | error f =>
    rw [Simulation.written_error]
    exact .ite (fun _ => gives_unknown) fun _ => .fail

/-- A list of what is known, behind its head. -/
theorem gives_behind {head : Value} (hhead : head.Bare) {w} {e : Eval (Option (List Value))}
    (he : R.GivesAll w e) : R.Gives w (e >>= fun
      | none => return .unknown
      | some args => return .list (head :: args)) := by
  refine .bind he fun t o _ ho => ?_
  cases o with
  | none => exact gives_unknown
  | some args => exact .give (Value.bare_list.2 (List.forall_mem_cons.2 ⟨hhead, ho args rfl⟩))

variable (hev : R.Evaluates ev)
include hev

theorem gives_resolve_all (env : FrameId) (scope : Scope) :
    (∀ form : Value, ∀ w, form.Bare → R.At w env scope →
      R.Gives w (resolveClauses ev env scope form)) ∧
    ∀ out forms : List Value, ∀ w, (∀ v ∈ out, v.Bare) → (∀ v ∈ forms, v.Bare) → R.At w env scope →
      R.GivesAll w (resolveAll ev env scope out forms) := by
  apply resolveClauses.mutual_induct
  case case1 =>
    intro arg w hf hat
    have harg := Value.bare_list.1 hf arg (by simp)
    simp only [resolveClauses]
    refine .bind (hev w arg env scope harg hat) fun t v _ hv => .give ?_
    split
    · exact Value.bare_unknown
    · exact hv
  case case2 =>
    intro args h1 w _ _
    simp only [resolveClauses.eq_2 _ env scope args h1]
    exact gives_unknown
  case case3 =>
    intro name args _ he hc w hf _
    rw [Simulation.resolve_character he hc]
    exact .give hf
  case case4 =>
    intro name he hc hd arg _ w hf hat
    obtain ⟨hhead, harg⟩ := List.forall_mem_cons.1 (Value.bare_list.1 hf)
    rw [Simulation.resolve_dynamic he hc hd]
    refine .bind (hev w arg env scope (harg arg (by simp)) hat) fun t v _ _ => ?_
    cases v with
    | str text =>
      refine .give (Value.bare_list.2 (List.forall_mem_cons.2 ⟨hhead, ?_⟩))
      exact List.forall_mem_singleton.2 Value.bare_str
    | _ => exact gives_unknown
  case case5 =>
    intro name args _ he hc hd h1 w _ _
    rw [Simulation.resolve_dynamic_many he hc hd h1]
    exact gives_unknown
  case case6 =>
    intro name args _ he hc hd ih w hf hat
    obtain ⟨hhead, ha⟩ := List.forall_mem_cons.1 (Value.bare_list.1 hf)
    rw [Simulation.resolve_clause he hc hd]
    exact gives_behind hhead (ih w (List.forall_mem_nil _) ha hat)
  case case7 =>
    intro head args h1 h2 h3 ih w hf hat
    obtain ⟨hhead, ha⟩ := List.forall_mem_cons.1 (Value.bare_list.1 hf)
    rw [resolveClauses.eq_5 _ env scope head args h2 h3 h1]
    exact gives_behind hhead (ih w (List.forall_mem_nil _) ha hat)
  case case8 =>
    intro form h1 w hf _
    rw [resolveClauses.eq_6 _ env scope form h1]
    exact .give hf
  case case9 =>
    intro out w ho _ _
    simp only [resolveAll]
    refine .ret fun _ _ vs hvs v hv => ?_
    cases hvs
    exact ho v (List.mem_reverse.1 hv)
  case case10 =>
    intro out form rest ih ihr w ho hi hat
    obtain ⟨hf, hr⟩ := List.forall_mem_cons.1 hi
    simp only [resolveAll]
    refine .known (ih w hf hat) (fun _ => by rintro _ ⟨⟩) fun t v ht hv => ?_
    exact ihr v t (List.forall_mem_cons.2 ⟨hv, ho⟩) hr (hat.later ht)

theorem handles_rx : R.Handles (rx ev) := by
  intro w args env scope ha hat
  refine .bind ((gives_resolve_all hev env scope).2 [] args w (List.forall_mem_nil _) ha hat) ?_
  intro t o _ _
  cases o with
  | none => exact gives_unknown
  | some forms => exact gives_written _

theorem handles_rxToString : R.Handles (rxToString ev) := by
  intro w args env scope ha hat
  refine .ite (fun _ => gives_unknown) fun _ =>
    .bind (goes_operands hev ha hat) fun t vs ht hvs => ?_
  cases vs with
  | nil => exact gives_unknown
  | cons form flags =>
    refine .ite (fun _ => gives_unknown) fun _ => ?_
    have hform := hvs.2 form List.mem_cons_self
    refine .known ((gives_resolve_all hev env scope).1 form t hform (hat.later ht)) ?_ ?_
    · exact fun _ => Value.bare_unknown
    · exact fun _ _ _ _ => gives_written _

end Regexps

end PatternLint.Region
