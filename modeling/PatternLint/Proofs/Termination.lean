import Mathlib.Data.Finset.Card
import Mathlib.Order.Filter.AtTopBot.Basic
import PatternLint.Proofs.SettlingEval

/-! Evaluation ends by itself where values do not become code. A variable is unknown while its
value is being found, a definition is not entered from inside of itself, and all else is done on
parts of a form. So three things get less, the first before the second and that before the
third: the variables that wait for their value, the definitions that may still be entered, and
the depth of the form. -/

namespace PatternLint

open Evaluation Filter

/-- No closures, and no symbol through which a value is run. -/
def Material.inert : Material where
  symbol name := name ≠ "lambda" ∧ name ≠ "rx-to-string"
  unknown := True
  runs := False
  proper := False
  symbol_t := by decide
  runs_lambda h := h.1 rfl
  runs_rxToString h := h.2 rfl

/-- The evaluations of an expression in all depths, whatever the fault is that running out of depth
is answered with, come to the same from some depth on. -/
def Terminates (ev : Fault → Nat → Evaluator) (expr : Value) (env : FrameId)
    (scope : Scope) (s : Store) : Prop :=
  ∃ depth r t, ∀ more fault, ev fault (depth + more) expr env scope s = (r, t)

/-- Along this filter the depth grows, and the fault for what is too deep is arbitrary. -/
def growing : Filter (Fault × Nat) :=
  atTop.comap Prod.snd

theorem eventually_growing {p : Fault × Nat → Prop} :
    (∀ᶠ i in growing, p i) ↔ ∃ depth, ∀ n ≥ depth, ∀ fault, p (fault, n) := by
  rw [growing, eventually_comap, eventually_atTop]
  refine exists_congr fun depth => forall_congr' fun n => imp_congr Iff.rfl ?_
  exact ⟨fun h fault => h (fault, n) rfl, by rintro h ⟨fault, _⟩ rfl; exact h fault⟩

/-- An evaluation settles if it does with one more level of depth. -/
theorem Settles.shift {α : Type} {I : Store → Prop} {Q : α → Prop} {e : Fault × Nat → Eval α}
    (h : Settles growing I Q fun i => e (i.1, i.2 + 1)) : Settles growing I Q e := by
  intro s hs
  obtain ⟨r, t, hrun, ht, hr⟩ := h s hs
  obtain ⟨depth, hrun⟩ := eventually_growing.1 hrun
  refine ⟨r, t, eventually_growing.2 ⟨depth + 1, fun n hn fault => ?_⟩, ht, hr⟩
  obtain ⟨n, rfl⟩ : ∃ k, n = k + 1 := ⟨n - 1, by omega⟩
  exact hrun n (by omega) fault

/-- Evaluation by depth, and with the fault for what is too deep. -/
def deep (i : Fault × Nat) : Evaluator :=
  evalBy (.variant i.1 Policy.plain.bind) i.2

def deepStructure (calls : Nat) (i : Fault × Nat) : Evaluator :=
  evalStructureWithin (.variant i.1 Policy.plain.bind) i.2 calls

/-- Forms of less than some depth. -/
def Below (m : Material) (depth : Nat) (v : Value) : Prop :=
  v.MadeOf m ∧ v.depth < depth

variable {m : Material} {depth : Nat} {defs : Definitions} {P : Set String} {E : List String}

theorem Below.code : Code m (Below m depth) where
  madeOf _ h := h.1
  nil v h := ⟨.nil, Nat.lt_of_le_of_lt (Nat.zero_le _) h.2⟩
  list items h v hv := by
    have hle := Value.depth_le_depthAll hv
    have hlt := h.2
    rw [Value.depth] at hlt
    exact ⟨Code.all.list items h.1 v hv, by omega⟩
  vec items h v hv := by
    have hle := Value.depth_le_depthAll hv
    have hlt := h.2
    rw [Value.depth] at hlt
    exact ⟨Code.all.vec items h.1 v hv, by omega⟩
  dotted items tail h := by
    obtain ⟨hitems, htail⟩ := Code.all.dotted items tail h.1
    have hlt := h.2
    rw [Value.depth] at hlt
    refine ⟨fun v hv => ⟨hitems v hv, ?_⟩, htail, by omega⟩
    have hle := Value.depth_le_depthAll hv
    omega

/-- The items of a list have less depth than the list. -/
theorem Below.whole {v : Value} (h : Below m (depth + 1) v) : Whole m (Below m depth) v := by
  refine ⟨h.1, ?_⟩
  rintro items rfl x hx
  have hle := Value.depth_le_depthAll hx
  have hlt := h.2
  rw [Value.depth] at hlt
  exact ⟨Code.all.list items h.1 x hx, by omega⟩

theorem steady_of_below {ev : Fault × Nat → Evaluator}
    (h : ∀ depth, Steady growing m defs P E (Below m depth) ev) :
    Steady growing m defs P E (Value.MadeOf m) ev :=
  fun expr env scope hmade hat =>
    h (expr.depth + 1) expr env scope ⟨hmade, Nat.lt_succ_self _⟩ hat

/-- The definitions that may still be entered. -/
def enterable (defs : Definitions) (E : List String) : Finset String :=
  (defs.functions.names ++ defs.macros.names).toFinset.filter (· ∉ E)

theorem enterable_ssubset {name : String} {d : Definition} (hname : name ∉ E)
    (hd : defs.functions.get? name = some d ∨ defs.macros.get? name = some d) :
    enterable defs (name :: E) ⊂ enterable defs E := by
  have hmem : name ∈ enterable defs E := by
    rw [enterable, Finset.mem_filter, List.mem_toFinset, List.mem_append]
    exact ⟨hd.imp Table.mem_names_of_get? Table.mem_names_of_get?, hname⟩
  refine (Finset.ssubset_iff_of_subset fun k hk => ?_).2 ⟨name, hmem, fun h => ?_⟩
  · rw [enterable, Finset.mem_filter] at hk ⊢
    exact ⟨hk.1, fun h => hk.2 (List.mem_cons_of_mem _ h)⟩
  · rw [enterable, Finset.mem_filter] at h
    exact h.2 List.mem_cons_self

section Descent

variable (hm : m.unknown) (hr : ¬m.runs) (hdefs : defs.MadeOf m)
include hm hr hdefs

/-- Looking up a variable leaves fewer that wait, and may enter all definitions anew; entering a
definition leaves fewer to enter, and may meet forms of any depth. -/
theorem steady_deep (P : Finset String) (E : List String) (depth : Nat) :
    Steady growing m defs P E (Below m depth) deep := by
  induction P using Finset.strongInduction generalizing E depth with
  | H P ihP =>
    induction hn : enterable defs E using Finset.strongInduction generalizing E depth with
    | H names ihE =>
      induction depth with
      | zero => exact fun expr _ _ h _ => (Nat.not_lt_zero _ h.2).elim
      | succ depth ih =>
        have hinner : ∀ name d, name ∉ E →
            (defs.functions.get? name = some d ∨ defs.macros.get? name = some d) →
            Steady growing m defs P (name :: E) (Value.MadeOf m) deep :=
          fun name d hname hd =>
            steady_of_below fun depth => ihE _ (hn ▸ enterable_ssubset hname hd) _ depth rfl
        have hglobal : ∀ name ∈ (P : Set String),
            Steady growing m defs (P \ {name}) [] (Value.MadeOf m) deep := by
          intro name hname
          rw [← Finset.coe_erase]
          exact steady_of_below fun depth => ihP _ (Finset.erase_ssubset hname) [] depth
        have hev : Supports growing m defs P E (Below m depth) deep :=
          ⟨Below.code, ih, hinner, hglobal, fun h => (hr h).elim⟩
        intro expr env scope hexpr hat
        exact .shift (keeps_step hdefs (binds_plain hm) hev (·.1) expr env scope hexpr.whole hat)

/-- Constructions are taken apart first, and the calls in between are gone through. -/
theorem solid_deepStructure (P : Finset String) (E : List String) (depth calls : Nat) :
    Solid growing m defs P E (Below m depth) (deepStructure calls) := by
  induction depth generalizing calls with
  | zero => exact fun expr _ _ h _ => (Nat.not_lt_zero _ h.2).elim
  | succ depth ih =>
    intro expr env scope hexpr hat
    induction calls with
    | succ calls hcalls => exact .shift hcalls
    | zero =>
      refine .shift ?_
      cases hc : Construction.of? expr with
      | some c =>
        simp only [deepStructure, evalStructureWithin, hc]
        exact keeps_build Below.code (ih c.calls) hexpr.whole.2 hc hat
      | none =>
        simp only [deepStructure, evalStructureWithin, hc]
        have hsteady := steady_deep hm hr hdefs P E (depth + 1) expr env scope hexpr hat
        exact hsteady.bind fun v hv => .ret (orNil_madeOf hv)

end Descent

/-- The variables that wait for their value are among those that a store has. -/
theorem Store.MadeOf.within_names {s : Store} (h : s.MadeOf m) :
    s.Within m (s.globals.names.toFinset : Set String) :=
  ⟨h, fun _ _ hk => List.mem_toFinset.2 (Table.mem_names_of_get? hk)⟩

theorem Settles.terminates {ev : Fault × Nat → Evaluator} {expr : Value} {env : FrameId}
    {scope : Scope} {s : Store} {I : Store → Prop} {Q : Value → Prop}
    (h : Settles growing I Q fun i => ev i expr env scope) (hs : I s) :
    Terminates (fun fault depth => ev (fault, depth)) expr env scope s := by
  obtain ⟨r, t, hrun, -, -⟩ := h s hs
  obtain ⟨depth, hrun⟩ := eventually_growing.1 hrun
  exact ⟨depth, r, t, fun more fault => hrun (depth + more) (Nat.le_add_right _ _) fault⟩

/-- Where no closures are about and none of the symbols through which values are run, evaluation
ends by itself: from some depth on, a bound on the depth makes no difference. -/
theorem evaluation_terminates (expr : Value) (env : FrameId) (scope : Scope) (s : Store)
    (hexpr : expr.MadeOf .inert) (hdefs : scope.defs.MadeOf .inert) (hs : s.MadeOf .inert) :
    Terminates (fun fault => evalBy { Policy.plain with tooDeep := fault }) expr env scope s ∧
      Terminates (fun fault => evalStructureBy { Policy.plain with tooDeep := fault }) expr
          env scope s := by
  have hbelow : Below .inert (expr.depth + 1) expr := ⟨hexpr, Nat.lt_succ_self _⟩
  have hat : Inside scope.defs scope.expanding scope := ⟨rfl, rfl⟩
  have hwithin := hs.within_names
  constructor
  · have h := steady_deep True.intro id hdefs s.globals.names.toFinset scope.expanding
    exact (h (expr.depth + 1) expr env scope hbelow hat).terminates hwithin
  · have h := solid_deepStructure True.intro id hdefs s.globals.names.toFinset scope.expanding
    exact (h (expr.depth + 1) 0 expr env scope hbelow hat).terminates hwithin

/-- A function and a macro that call each other, and an alias of the function. -/
def tangledDefs : Definitions :=
  ⟨⟨[("f", ⟨.nil, [.list [.sym "m"], .list [.sym "list", .sym "x"]]⟩)]⟩,
    ⟨[("m", ⟨.nil, [.list [.sym "quote", .list [.sym "g"]]]⟩)]⟩, ⟨[("g", "f")]⟩⟩

/-- A variable whose value depends on itself. -/
def tangledStore : Store :=
  ⟨#[⟨.empty, none⟩], 0, ⟨[("x", .pending (.list [.sym "list", .sym "x", .list [.sym "f"]]))]⟩⟩

theorem tangled_terminates :
    (Value.list [.sym "f"]).MadeOf .inert ∧ tangledDefs.MadeOf .inert ∧
      tangledStore.MadeOf .inert ∧
      Terminates (fun fault => evalBy { Policy.plain with tooDeep := fault }) (.list [.sym "f"]) 0
        ⟨tangledDefs, 0, [], [], [], 100⟩ tangledStore := by
  have hexpr : (Value.list [.sym "f"]).MadeOf .inert := by simp [Material.inert]
  have hdefs : tangledDefs.MadeOf .inert := by
    refine ⟨fun name d h => ?_, fun name d h => ?_, fun name target h => ?_⟩
    all_goals
      have hmem := Table.mem_of_get? h
      simp only [tangledDefs, List.mem_singleton, Prod.mk.injEq] at hmem
      obtain ⟨-, rfl⟩ := hmem
    · exact ⟨.nil, by simp [Material.inert]⟩
    · exact ⟨.nil, by simp [Material.inert]⟩
    · exact ⟨by decide, by decide⟩
  have hs : tangledStore.MadeOf .inert := by
    refine ⟨fun id name v h => ?_, fun name g h => ?_⟩
    · obtain ⟨frame, hframe, hv⟩ := Option.bind_eq_some_iff.1 h
      have hmem := Array.mem_of_getElem? hframe
      simp only [tangledStore, Array.mem_singleton] at hmem
      subst hmem
      cases hv
    · have hmem := Table.mem_of_get? h
      simp only [tangledStore, List.mem_singleton, Prod.mk.injEq] at hmem
      obtain ⟨-, rfl⟩ := hmem
      simp [Global.MadeOf, Material.inert]
  exact ⟨hexpr, hdefs, hs, (evaluation_terminates _ 0 _ _ hexpr hdefs hs).1⟩

end PatternLint
