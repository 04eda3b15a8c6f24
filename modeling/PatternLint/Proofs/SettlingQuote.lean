import PatternLint.Proofs.SettlingForms
import PatternLint.Proofs.SimulationRx

/-! Quoted data, closures, templates and structured regexps settle where the evaluations that they
make do. -/

namespace PatternLint

open Evaluation

variable {ι : Type} {F : Filter ι} {m : Material} {defs : Definitions} {P : Set String}
  {E : List String} {C : Value → Prop} {ev : ι → Evaluator} {env : FrameId} {scope : Scope}
  {args : List Value}

section Quote

variable (hC : Code m C)
include hC

theorem handles_quote : Handles F m defs P E C fun _ => quote := by
  intro args env scope ha _
  match args, ha with
  | [], _ => exact .ret .unknown
  | [v], ha =>
    have hv := hC.madeOf v (ha v List.mem_cons_self)
    cases hunquote : isUnquote v
    · simp only [quote, hunquote]
      exact .ret (.inr hv)
    · simp only [quote, hunquote]
      exact .ret .unknown
  | _ :: _ :: _, _ => exact .ret .unknown

theorem handles_lambda (hr : m.runs) : Handles F m defs P E C fun _ => lambda := by
  intro args env scope ha _
  match args, ha with
  | [], _ => exact .ret .unknown
  | formals :: body, ha =>
    obtain ⟨hf, hb⟩ := List.forall_mem_cons.1 ha
    exact keeps_closure hr (hC.madeOf _ hf) (fun form h => hC.madeOf _ (hb form h)) env

theorem handles_function : Handles F m defs P E C fun _ => function := by
  intro args env scope ha _
  match args, ha with
  | [], _ => exact .ret .unknown
  | [v], ha =>
    have hv := hC.madeOf v (ha v List.mem_cons_self)
    by_cases hl : ∃ formals body, v = .list (lambdaMark :: formals :: body)
    · obtain ⟨formals, body, rfl⟩ := hl
      cases hv with
      | list h _ =>
        obtain ⟨hmark, h⟩ := List.forall_mem_cons.1 h
        obtain ⟨hf, hb⟩ := List.forall_mem_cons.1 h
        cases hmark with
        | sym hmark => exact keeps_closure (m.runs_lambda hmark) hf hb env
    · simp only [function.eq_2 env scope v fun f b h => hl ⟨f, b, h⟩]
      cases hunquote : isUnquote v
      · exact .ret (.inr hv)
      · exact .ret .unknown
  | _ :: _ :: _, _ =>
    simp only [function]
    exact .ret .unknown

end Quote

section Template

variable (hC : Code m C) (hev : Steady F m defs P E C ev)
include hC hev

/-- A template is code, and what is filled in is made of the material. -/
theorem keeps_expand_all (hat : Inside defs E scope) :
    (∀ t, C t → SettlesIn F m P (Value.Tracked m) fun i => expand (ev i) env scope t) ∧
    (∀ items, (∀ v ∈ items, C v) →
      SettlesIn F m P (Value.Tracked m) fun i => expandList (ev i) env scope items) ∧
    ∀ out items, (∀ v ∈ out, v.MadeOf m) → (∀ v ∈ items, C v) →
      SettlesIn F m P (Value.Tracked m) fun i => expandItems (ev i) env scope out items := by
  apply expand.mutual_induct
  case case1 =>
    intro items ih ht
    simp only [expand]
    exact ih (hC.list _ ht)
  case case2 =>
    intro items ih ht
    simp only [expand]
    refine (ih (hC.vec _ ht)).known .unknown fun v hv => ?_
    exact (Settles.ofExcept hv.asList).bind fun vs hvs => .ret (.inr (.vec hvs))
  case case3 =>
    intro items tail ih iht ht
    obtain ⟨hitems, htail⟩ := hC.dotted _ _ ht
    simp only [expand]
    refine (ih hitems).bind fun head hhead => (iht htail).bind fun rest hrest => ?_
    refine .ite (fun _ => .ret .unknown) fun hknown => ?_
    rw [Bool.or_eq_true, not_or, Bool.not_eq_true, Bool.not_eq_true] at hknown
    refine (Settles.ofExcept (hhead.madeOf hknown.1).asList).bind fun vs hvs => .ret (.inr ?_)
    exact .prepend hvs (hrest.madeOf hknown.2)
  case case4 =>
    intro v h1 h2 h3 hv
    simp only [expand.eq_4 _ env scope v h1 h2 h3]
    exact .ret (.inr (hC.madeOf v hv))
  case case5 =>
    intro tail _
    simp only [expandList]
    exact .ret .unknown
  case case6 =>
    intro tail _
    simp only [expandList]
    exact .ret .unknown
  case case7 =>
    intro items h1 h2 ih hi
    simp only [expandList.eq_3 _ env scope items h1 h2]
    exact ih (List.forall_mem_nil _) hi
  case case8 =>
    intro out ho _
    simp only [expandItems]
    exact .ret (.inr (.ofList fun v hv => ho v (List.mem_reverse.1 hv)))
  case case9 =>
    intro out form ho hi
    simp only [expandItems]
    refine (hev _ _ _ (hi form (by simp)) hat).bind fun tail ht => .ret ?_
    split
    · exact .unknown
    · rename_i hknown
      refine .inr (.prepend (fun v hv => ho v (List.mem_reverse.1 hv)) ?_)
      exact ht.madeOf (Bool.eq_false_iff.2 hknown)
  case case10 =>
    intro out form rest ih ho hi
    obtain ⟨hs, hr⟩ := List.forall_mem_cons.1 hi
    simp only [expandItems]
    refine (hev _ _ _ (hC.list _ hs form (by simp)) hat).known .unknown fun v hv => ?_
    refine .withResult hv.asList (fun more hmore => ih more ?_ hr) (.ret .unknown)
    exact Value.MadeOf.append (fun v hv => hmore v (List.mem_reverse.1 hv)) ho
  case case11 =>
    intro out item rest h1 h2 ih ihr ho hi
    obtain ⟨hx, hr⟩ := List.forall_mem_cons.1 hi
    simp only [expandItems.eq_4 _ env scope out item rest h1 h2]
    exact (ih hx).known .unknown fun v hv => ihr v (List.forall_mem_cons.2 ⟨hv, ho⟩) hr

theorem handles_template : Handles F m defs P E C fun i => template (ev i) := by
  intro args env scope ha hat
  match args, ha with
  | [], _ => exact .ret .unknown
  | [v], ha =>
    refine ((keeps_expand_all hC hev hat).1 v (ha v List.mem_cons_self)).bind fun v hv => .ret ?_
    split
    · exact .inr .nil
    · exact hv
  | _ :: _ :: _, _ => exact .ret .unknown

end Template

section Regexps

theorem keeps_written (r : Except Fault String) :
    SettlesIn F m P (Value.Tracked m) fun _ => written r := by
  cases r with
  | ok text => exact .ret (.inr .str)
  | error f =>
    simp only [Simulation.written_error]
    exact .ite (fun _ => .ret .unknown) fun _ => .fail

/-- A list of what is known, behind its head. -/
theorem keeps_behind {head : Value} (hhead : head.MadeOf m) {e : ι → Eval (Option (List Value))}
    (he : SettlesIn F m P (fun o => ∀ vs ∈ o, ∀ v ∈ vs, v.MadeOf m) e) :
    SettlesIn F m P (Value.Tracked m) fun i => e i >>= fun
      | none => return .unknown
      | some args => return .list (head :: args) := by
  refine he.bind fun o ho => ?_
  cases o with
  | none => exact .ret .unknown
  | some args =>
    exact .ret (.inr (.list (List.forall_mem_cons.2 ⟨hhead, ho args rfl⟩) fun _ =>
      List.cons_ne_nil _ _))

variable (hC : Code m C) (hev : Steady F m defs P E C ev)
include hC hev

theorem keeps_resolve_all (env : FrameId) (hat : Inside defs E scope) :
    (∀ form, C form → SettlesIn F m P (Value.Tracked m) fun i => resolveClauses (ev i)
      env scope form) ∧
    ∀ out forms, (∀ v ∈ out, v.MadeOf m) → (∀ v ∈ forms, C v) →
      SettlesIn F m P (fun o => ∀ vs ∈ o, ∀ v ∈ vs, v.MadeOf m)
        fun i => resolveAll (ev i) env scope out forms := by
  apply resolveClauses.mutual_induct
  case case1 =>
    intro arg hf
    simp only [resolveClauses]
    refine (hev _ _ _ (hC.list _ hf arg (by simp)) hat).bind fun v hv => .ret ?_
    split
    · exact .unknown
    · exact hv
  case case2 =>
    intro args h1 hf
    simp only [resolveClauses.eq_2 _ env scope args h1]
    exact .ret .unknown
  case case3 =>
    intro name args _ he hc hf
    simp only [Simulation.resolve_character he hc]
    exact .ret (.inr (hC.madeOf _ hf))
  case case4 =>
    intro name he hc hd arg _ hf
    simp only [Simulation.resolve_dynamic he hc hd]
    refine (hev _ _ _ (hC.list _ hf arg (by simp)) hat).bind fun v _ => ?_
    have hhead := hC.madeOf _ (hC.list _ hf (.sym name) List.mem_cons_self)
    cases v with
    | str text =>
      refine .ret (.inr (.list ?_ fun _ => List.cons_ne_nil _ _))
      exact List.forall_mem_cons.2 ⟨hhead, List.forall_mem_singleton.2 .str⟩
    | _ => exact .ret .unknown
  case case5 =>
    intro name args _ he hc hd h1 _
    simp only [Simulation.resolve_dynamic_many he hc hd h1]
    exact .ret .unknown
  case case6 =>
    intro name args _ he hc hd ih hf
    obtain ⟨hhead, ha⟩ := List.forall_mem_cons.1 (hC.list _ hf)
    simp only [Simulation.resolve_clause he hc hd]
    exact keeps_behind (hC.madeOf _ hhead) (ih (List.forall_mem_nil _) ha)
  case case7 =>
    intro head args h1 h2 h3 ih hf
    obtain ⟨hhead, ha⟩ := List.forall_mem_cons.1 (hC.list _ hf)
    simp only [resolveClauses.eq_5 _ env scope head args h2 h3 h1]
    exact keeps_behind (hC.madeOf _ hhead) (ih (List.forall_mem_nil _) ha)
  case case8 =>
    intro form h1 hf
    simp only [resolveClauses.eq_6 _ env scope form h1]
    exact .ret (.inr (hC.madeOf _ hf))
  case case9 =>
    intro out ho _
    simp only [resolveAll]
    refine .ret fun vs hvs v hv => ?_
    cases hvs
    exact ho v (List.mem_reverse.1 hv)
  case case10 =>
    intro out form rest ih ihr ho hi
    obtain ⟨hf, hr⟩ := List.forall_mem_cons.1 hi
    simp only [resolveAll]
    refine (ih hf).known (by rintro _ ⟨⟩) fun v hv => ?_
    exact ihr v (List.forall_mem_cons.2 ⟨hv, ho⟩) hr

theorem handles_rx : Handles F m defs P E C fun i => rx (ev i) := by
  intro args env scope ha hat
  refine ((keeps_resolve_all hC hev env hat).2 [] args (List.forall_mem_nil _) ha).bind
    fun o _ => ?_
  cases o with
  | none => exact .ret .unknown
  | some forms => exact keeps_written _

end Regexps

/-- What is made of the material has parts that are. -/
theorem Code.all : Code m (Value.MadeOf m) where
  madeOf _ h := h
  nil _ _ := .nil
  list items h := by
    cases h with
    | list h _ => exact h
  vec items h := by
    cases h with
    | vec h => exact h
  dotted items tail h := by
    cases h with
    | dotted h ht _ => exact ⟨h, ht⟩

/-- The form that is written is a value, whose clauses are run. -/
theorem handles_rxToString (hev : Steady F m defs P E C ev)
    (hrun : Steady F m defs P E (Value.MadeOf m) ev) :
    Handles F m defs P E C fun i => rxToString (ev i) := by
  intro args env scope ha hat
  refine .ite (fun _ => .ret .unknown) fun _ => (keeps_operands hev ha hat).bind fun vs hvs => ?_
  cases vs with
  | nil => exact .ret .unknown
  | cons form flags =>
    refine .ite (fun _ => .ret .unknown) fun hknown => ?_
    rw [Bool.or_eq_true, not_or, Bool.not_eq_true] at hknown
    have hform := (hvs form List.mem_cons_self).madeOf hknown.1
    refine ((keeps_resolve_all Code.all hrun env hat).1 form hform).known .unknown fun _ _ => ?_
    exact keeps_written _

end PatternLint
