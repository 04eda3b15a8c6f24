import Mathlib.Data.Set.Insert
import Mathlib.Order.Bounds.Basic
import Mathlib.Tactic.Tauto
import PatternLint.Analysis.Generators

/-! Where a value may come from is the least solution of the equations that say it expression by
expression. That the bodies of definitions are not entered again from inside of themselves loses
nothing: behind the last time that a definition is entered, it is not entered any more. -/

namespace PatternLint.Analysis

theorem mem_eraseReps_loop {α : Type} [BEq α] [LawfulBEq α] {a b : α} {rest kept : List α} :
    a ∈ List.eraseRepsBy.loop (· == ·) b rest kept ↔ a ∈ kept ∨ a ∈ b :: rest := by
  induction rest generalizing b kept with
  | nil => simp [List.eraseRepsBy.loop, or_comm]
  | cons c rest ih =>
    rw [List.eraseRepsBy.loop]
    split
    · rename_i heq
      obtain rfl := eq_of_beq heq
      simp [ih]
    · simp only [ih, List.mem_cons]
      tauto

theorem mem_eraseReps {α : Type} [BEq α] [LawfulBEq α] {a : α} {items : List α} :
    a ∈ items.eraseReps ↔ a ∈ items := by
  cases items with
  | nil => rfl
  | cons b rest => exact mem_eraseReps_loop.trans (or_iff_right List.not_mem_nil)

namespace Findings

variable (s : Findings)

/-- What an expression yields, by what its parts and the bodies of definitions do. -/
def yielded (yields : Value → Set String) : Value → Set String
  | .sym name => if (s.checked.get? name).or (shapeOfName name) = some .regexp then {name} else ∅
  | .list (.sym head :: args) =>
    if head = "quote" ∨ head = "function" then ∅
    else if s.defs.resolve head ∈ generatorNames ∨ s.defs.resolve head ∈ s.regexpReturning then
      {s.defs.resolve head}
    else if s.defs.resolve head ∈ consumerNames then ∅
    else match s.defs.functions.get? (s.defs.resolve head) with
      | some d =>
        match d.body.getLast? with
        | some form => yields form
        | none => ∅
      | none => {name | ∃ arg ∈ args, name ∈ yields arg}
  | _ => ∅

/-- The expression yields the name, and no definition among the `closed` ones is entered for it. -/
inductive Yields (closed : List String) : Value → String → Prop
  | symbol {name : String} (h : s.shapeOf name = some .regexp) : Yields closed (.sym name) name
  | generator {head name : String} {args : List Value} (h : s.origin head = .generator name) :
      Yields closed (.list (.sym head :: args)) name
  | argument {head name : String} {args : List Value} {arg : Value} (h : s.origin head = .arguments)
      (harg : arg ∈ args) (hyields : Yields closed arg name) :
      Yields closed (.list (.sym head :: args)) name
  | body {head f name : String} {d : Definition} {args : List Value} {form : Value}
      (h : s.origin head = .body f d) (hf : f ∉ closed) (hform : d.body.getLast? = some form)
      (hyields : Yields closed form name) : Yields closed (.list (.sym head :: args)) name

/-- How many definitions may still be entered. -/
def unentered (closed : List String) : Nat :=
  (s.defs.functions.names.filter (· ∉ closed)).length

variable {s} {closed : List String} {head f name : String} {d : Definition} {args : List Value}
  {expr form : Value} {yields : Value → Set String} {fuel fuel' : Nat}

theorem get?_of_origin (h : s.origin head = .body f d) : s.defs.functions.get? f = some d := by
  simp only [origin] at h
  split at h
  · cases h
  split at h
  · cases h
  split at h
  · cases h
  split at h
  · cases h
    assumption
  · cases h

theorem unentered_lt (hd : s.defs.functions.get? f = some d) (hf : f ∉ closed) :
    s.unentered (f :: closed) < s.unentered closed := by
  have hfilter : s.defs.functions.names.filter (· ∉ f :: closed) =
      (s.defs.functions.names.filter (· ∉ closed)).filter (· ≠ f) := by
    rw [List.filter_filter]
    exact List.filter_congr fun k _ => by simp
  have hmem : f ∈ s.defs.functions.names.filter (· ∉ closed) :=
    List.mem_filter.2 ⟨Table.mem_names_of_get? hd, by simpa using hf⟩
  rw [unentered, hfilter]
  exact List.length_filter_lt_length_iff_exists.2 ⟨f, hmem, by simp⟩

/-- A call, by how its head bears on where the value comes from. -/
theorem yielded_call : s.yielded yields (.list (.sym head :: args)) =
    match s.origin head with
    | .quoted | .consumer => ∅
    | .generator name => {name}
    | .body _ d =>
      match d.body.getLast? with
      | some form => yields form
      | none => ∅
    | .arguments => {name | ∃ arg ∈ args, name ∈ yields arg} := by
  simp only [yielded, origin]
  split
  · rfl
  split
  · rfl
  split
  · rfl
  cases s.defs.functions.get? (s.defs.resolve head) <;> rfl

/-! The least solution -/

/-- What an expression yields without bounds solves the equations. -/
theorem yields_solution :
    (fun expr => {name | s.Yields [] expr name}) =
    s.yielded fun expr => {name | s.Yields [] expr name} := by
  funext expr
  ext name
  constructor
  · intro h
    cases h with
    | symbol h => simpa [yielded, shapeOf] using h
    | generator h => simp [yielded_call, h]
    | argument h harg hyields => simpa [yielded_call, h] using ⟨_, harg, hyields⟩
    | body h _ hform hyields => simpa [yielded_call, h, hform] using hyields
  · intro h
    match expr with
    | .sym name' =>
      rw [yielded] at h
      split at h
      · cases h
        exact .symbol ‹_›
      · cases h
    | .list (.sym head :: args) =>
      rw [yielded_call] at h
      cases horigin : s.origin head with
      | quoted | consumer => simp [horigin] at h
      | generator name' =>
        obtain rfl : name = name' := by simpa [horigin] using h
        exact .generator horigin
      | body f d =>
        cases hform : d.body.getLast? with
        | none => simp [horigin, hform] at h
        | some form =>
          exact .body horigin List.not_mem_nil hform (by simpa [horigin, hform] using h)
      | arguments =>
        obtain ⟨arg, harg, hyields⟩ : ∃ arg ∈ args, s.Yields [] arg name := by
          simpa [horigin] using h
        exact .argument horigin harg hyields
    | .nil | .str _ | .int _ | .float _ | .dotted .. | .vec _ | .closure .. | .unknown => cases h
    | .list [] | .list (.nil :: _) | .list (.str _ :: _) | .list (.int _ :: _)
    | .list (.float _ :: _) | .list (.list _ :: _) | .list (.dotted .. :: _) | .list (.vec _ :: _)
    | .list (.closure .. :: _) | .list (.unknown :: _) => cases h

/-- What an expression yields is in every solution of the equations. -/
theorem Yields.mem_solution (h : s.Yields closed expr name) (hyields : yields = s.yielded yields) :
    name ∈ yields expr := by
  induction h with
  | symbol h =>
    rw [hyields, yielded]
    exact (if_pos h).symm ▸ Set.mem_singleton _
  | generator h =>
    rw [hyields, yielded_call, h]
    exact Set.mem_singleton _
  | argument h harg _ ih =>
    rw [hyields, yielded_call, h]
    exact ⟨_, harg, ih⟩
  | body h _ hform _ ih =>
    rw [hyields, yielded_call, h]
    simpa [hform] using ih

/-! Definitions that are entered once -/

/-- A definition may be left out, except for what its body yields without it. -/
theorem Yields.avoid (h : s.Yields closed expr name) (hd : s.defs.functions.get? f = some d)
    (hform : d.body.getLast? = some form) :
    s.Yields (f :: closed) expr name ∨ s.Yields (f :: closed) form name := by
  induction h with
  | symbol h => exact .inl (.symbol h)
  | generator h => exact .inl (.generator h)
  | argument h harg _ ih => exact ih.imp_left (.argument h harg)
  | @body _ g _ d' _ form' h hg hform' _ ih =>
    rcases ih with ih | ih
    · by_cases hfg : g = f
      · subst hfg
        obtain rfl : d' = d := Option.some.inj ((get?_of_origin h).symm.trans hd)
        obtain rfl : form' = form := Option.some.inj (hform'.symm.trans hform)
        exact .inr ih
      · exact .inl (.body h (by simp [hfg, hg]) hform' ih)
    · exact .inr ih

theorem Yields.mono (h : s.Yields (f :: closed) expr name) : s.Yields closed expr name := by
  induction h with
  | symbol h => exact .symbol h
  | generator h => exact .generator h
  | argument h harg _ ih => exact .argument h harg ih
  | body h hf hform _ ih => exact .body h (List.not_mem_of_not_mem_cons hf) hform ih

/-! The names that are found -/

section By

variable {expand expand' : String → Definition → List String}

theorem mem_generatorsOfAll {exprs : List Value} : name ∈ s.generatorsOfAll expand exprs ↔
    ∃ expr ∈ exprs, name ∈ s.generatorsBy expand expr := by
  induction exprs with
  | nil => simp [generatorsOfAll]
  | cons expr rest ih => simp [generatorsOfAll, ih]

mutual

theorem yields_of_mem_by (expr : Value)
    (hexpand : ∀ head f d, s.origin head = .body f d → name ∈ expand f d →
      ∀ args, s.Yields closed (.list (.sym head :: args)) name)
    (h : name ∈ s.generatorsBy expand expr) : s.Yields closed expr name := by
  unfold generatorsBy at h
  split at h
  · split at h
    · obtain rfl := List.mem_singleton.1 h
      exact .symbol ‹_›
    · cases h
  · rename_i head args
    split at h
    · cases h
    · cases h
    · obtain rfl := List.mem_singleton.1 h
      exact .generator ‹_›
    · exact hexpand _ _ _ ‹_› h args
    · obtain ⟨arg, harg, hyields⟩ := yields_of_mem_all args hexpand h
      exact .argument ‹_› harg hyields
  · cases h

theorem yields_of_mem_all (exprs : List Value)
    (hexpand : ∀ head f d, s.origin head = .body f d → name ∈ expand f d →
      ∀ args, s.Yields closed (.list (.sym head :: args)) name)
    (h : name ∈ s.generatorsOfAll expand exprs) : ∃ expr ∈ exprs, s.Yields closed expr name := by
  match exprs with
  | [] => cases h
  | expr :: rest =>
    rw [generatorsOfAll, List.mem_append] at h
    rcases h with h | h
    · exact ⟨expr, List.mem_cons_self, yields_of_mem_by expr hexpand h⟩
    · obtain ⟨arg, harg, hyields⟩ := yields_of_mem_all rest hexpand h
      exact ⟨arg, List.mem_cons_of_mem _ harg, hyields⟩

end

mutual

theorem generatorsBy_congr (expr : Value)
    (h : ∀ f d, s.defs.functions.get? f = some d → expand f d = expand' f d) :
    s.generatorsBy expand expr = s.generatorsBy expand' expr := by
  unfold generatorsBy
  split
  · rfl
  · split
    · rfl
    · rfl
    · rfl
    · exact h _ _ (get?_of_origin ‹_›)
    · exact generatorsOfAll_congr _ h
  · rfl

theorem generatorsOfAll_congr (exprs : List Value)
    (h : ∀ f d, s.defs.functions.get? f = some d → expand f d = expand' f d) :
    s.generatorsOfAll expand exprs = s.generatorsOfAll expand' exprs := by
  match exprs with
  | [] => rfl
  | expr :: rest =>
    rw [generatorsOfAll, generatorsOfAll, generatorsBy_congr expr h, generatorsOfAll_congr rest h]

end

end By

theorem yields_of_mem (h : name ∈ s.generatorsWithin fuel closed expr) :
    s.Yields closed expr name := by
  induction fuel generalizing closed expr with
  | zero => cases h
  | succ fuel ih =>
    refine yields_of_mem_by expr (fun head f d horigin hmem args => ?_) h
    split at hmem
    · cases hmem
    · split at hmem
      · exact .body horigin ‹_› ‹_› (ih hmem).mono
      · cases hmem

/-- With a fuel for every definition that may be entered, nothing is missed. -/
theorem Yields.mem (h : s.Yields closed expr name) (hfuel : s.unentered closed < fuel) :
    name ∈ s.generatorsWithin fuel closed expr := by
  induction fuel generalizing closed expr name with
  | zero => omega
  | succ fuel ihfuel =>
    rw [generatorsWithin]
    induction h with
    | symbol h => simp [generatorsBy, h]
    | generator h => simp [generatorsBy, h]
    | argument h harg _ ih =>
      simp only [generatorsBy, h]
      exact mem_generatorsOfAll.2 ⟨_, harg, ih⟩
    | @body _ f name d _ form h hf hform hyields _ =>
      have hd := get?_of_origin h
      have hless := unentered_lt hd hf
      have hagain : s.Yields (f :: closed) form name := (hyields.avoid hd hform).elim id id
      simp only [generatorsBy, h, if_neg hf, hform]
      exact ihfuel hagain (by omega)

/-- The search ends by itself: with more fuel it finds the same. -/
theorem generatorsWithin_stable (hfuel : s.unentered closed < fuel)
    (hfuel' : s.unentered closed < fuel') :
    s.generatorsWithin fuel closed = s.generatorsWithin fuel' closed := by
  induction fuel generalizing fuel' closed with
  | zero => omega
  | succ fuel ih =>
    obtain ⟨fuel', rfl⟩ : ∃ n, fuel' = n + 1 := ⟨fuel' - 1, by omega⟩
    funext expr
    rw [generatorsWithin, generatorsWithin]
    refine generatorsBy_congr expr fun f d hd => ?_
    split
    · rfl
    · rename_i hf
      have hless := unentered_lt hd hf
      split
      · exact congrFun (ih (by omega) (by omega)) _
      · rfl

theorem unentered_le (closed : List String) :
    s.unentered closed ≤ s.defs.functions.entries.length :=
  (List.length_filter_le _ _).trans_eq (List.length_map _)

theorem mem_generators : name ∈ s.generators expr ↔ s.Yields [] expr name := by
  have hfuel : s.unentered [] < s.defs.functions.entries.length + 1 :=
    Nat.lt_succ_of_le (unentered_le [])
  rw [generators, mem_eraseReps, List.mem_mergeSort]
  exact ⟨yields_of_mem, fun h => h.mem hfuel⟩

/-- The search for generators ends by itself, its bound is never reached, and what it finds is the
least solution of the equations, however definitions call one another. -/
theorem generators_least (s : Findings) :
    IsLeast {yields | yields = s.yielded yields} (fun expr => {name | name ∈ s.generators expr}) ∧
      ∀ expr fuel, s.defs.functions.entries.length < fuel →
        s.generatorsWithin fuel [] expr =
          s.generatorsWithin (s.defs.functions.entries.length + 1) [] expr := by
  have hgenerators : (fun expr => {name | name ∈ s.generators expr}) =
      fun expr => {name | s.Yields [] expr name} := by
    funext expr
    exact Set.ext fun name => mem_generators
  refine ⟨⟨?_, fun yields hyields expr name hname => ?_⟩, fun expr fuel hfuel => ?_⟩
  · rw [hgenerators]
    exact yields_solution
  · exact (mem_generators.1 hname).mem_solution hyields
  · have hle := unentered_le (s := s) []
    exact congrFun (generatorsWithin_stable (by omega) (by omega)) expr

end Findings

end PatternLint.Analysis
