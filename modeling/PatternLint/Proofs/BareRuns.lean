import PatternLint.Proofs.FrameEval
import PatternLint.Proofs.Isolation
import PatternLint.Proofs.StrictRuns

/-! Evaluations in stores without functions. They leave stores without functions, in which values
that stand for each other are equal. -/

namespace PatternLint

open Evaluation Region

variable {depth n : Nat} {env frame : FrameId} {scope inner : Scope} {s t t' u : Store} {v : Value}
  {bs : List (String × Value)} {body : List Value}

/-- The first `n` frames and the global variables have the same values in both stores. -/
structure Store.AgreesBelow (n : Nat) (s t : Store) : Prop where
  values : ∀ id < n, ∀ name, s.frames.valueIn? name id = t.frames.valueIn? name id
  globals : ∀ name, s.globals.get? name = t.globals.get? name

theorem Store.AgreesBelow.refl (n : Nat) (s : Store) : s.AgreesBelow n s :=
  ⟨fun _ _ _ => rfl, fun _ => rfl⟩

theorem Store.AgreesBelow.trans (h : s.AgreesBelow n t) (h' : t.AgreesBelow n u) :
    s.AgreesBelow n u :=
  ⟨fun id hid name => (h.values id hid name).trans (h'.values id hid name),
    fun name => (h.globals name).trans (h'.globals name)⟩

/-- No functions are held, and frames lie inside ones that were made before them. -/
structure Store.FunctionFree (s : Store) : Prop where
  values : ∀ (id : FrameId) f, s.frames[id]? = some f → ∀ b ∈ f.vars.entries, b.2.Bare
  inside : ∀ (id : FrameId) f, s.frames[id]? = some f → ∀ o ∈ f.outer, o < id
  globals : ∀ name g, s.globals.get? name = some g → g.Bare

/-- All frames may change. -/
def Region.everywhere : Region :=
  ⟨fun _ => False, 0, fun _ h => h.elim⟩

theorem Region.at_everywhere (hdefs : scope.defs.Bare) (henv : env < s.frames.size) :
    everywhere.At s env scope :=
  ⟨hdefs, fun h => h, .inr (Nat.zero_le _), henv, fun _ _ _ _ h => h⟩

theorem Store.FunctionFree.tidy (hs : s.FunctionFree) : everywhere.Tidy s where
  size := Nat.zero_le _
  outward _ _ _ _ _ _ _ := .inr (Nat.zero_le _)
  values id name v _ hv := by
    obtain ⟨f, hf, hv⟩ := Option.bind_eq_some_iff.1 hv
    exact hs.values id f hf _ (Table.mem_of_get? hv)
  globals := hs.globals

/-- Each frame stands for itself. -/
theorem Store.FunctionFree.encloses (hs : s.FunctionFree) :
    s.Encloses fun id => id < s.frames.size where
  twins := by
    rintro i _ ⟨rfl, hi⟩
    have hf : s.frames[i]? = some s.frames[i] := Array.getElem?_eq_getElem hi
    refine ⟨_, _, hf, hf, List.forall₂_same.2 fun b hb => ⟨rfl, .inl ?_⟩, ?_, hs.inside i _ hf,
      hs.inside i _ hf⟩
    · exact (hs.values i _ hf b hb).plain.matches _
    · cases ho : s.frames[i].outer with
      | none => exact .none
      | some o => exact .some (.inl ⟨rfl, Nat.lt_trans (hs.inside i _ hf o ho) hi⟩)
  shadows _ _ h := h.elim
  serials := by
    rintro k _ ⟨rfl, hk⟩
    exact ⟨hk, hk⟩
  globals name := by
    cases hg : s.globals.get? name with
    | none => exact .none
    | some g => exact .some ((hs.globals name g hg).isPlain.same _ _)

variable {c : Labels} {o : Option Value}

/-- The same value, or none. -/
abbrev Same (c : Labels) : Option Value → Option Value → Prop :=
  Option.Rel (Loose False c)

theorem Same.refl (h : ∀ v ∈ o, v.Bare) : Same c o o := by
  cases o with
  | none => exact .none
  | some v => exact .some (.inl ((h v rfl).plain.matches c))

/-- Without functions, what is the same is equal. -/
theorem Store.AgreesBelow.of_same (ht : everywhere.Tidy t)
    (hvalues : ∀ id < n, ∀ name, Same c (t.frames.valueIn? name id) (t'.frames.valueIn? name id))
    (hglobals : ∀ name, Option.Rel (Global.Same False c) (t.globals.get? name)
      (t'.globals.get? name)) :
    t.AgreesBelow n t' where
  values id hid name :=
    rel_eq (hvalues id hid name) fun v hv _ h =>
      h.eq (ht.values id name v (.inr (Nat.zero_le _)) hv)
  globals name := rel_eq (hglobals name) fun g hg _ h => h.eq (ht.globals name g hg)

section Runs

variable (hdefs : scope.defs.Bare)
include hdefs

/-- What is evaluated without functions gives none. -/
theorem strict_bare {expr : Value} (hs : everywhere.Tidy s) (henv : env < s.frames.size)
    (hexpr : expr.Bare) (h : evalBy .strict depth expr env scope s = (.ok v, t)) :
    s.frames.Grown t.frames ∧ everywhere.Tidy t ∧ v.Bare := by
  have hplain : evalBy .plain depth expr env scope s = (.ok v, t) :=
    strict_deeper h (Nat.le_refl _) .tooDeep
  have hgives := evaluates_evalBy depth s expr env scope hexpr (at_everywhere hdefs henv)
  obtain ⟨hlater, ht, hv⟩ := hgives s (everywhere.evaluation.refl s) hs
  rw [hplain] at hlater ht hv
  exact ⟨hlater.1, ht, hv v rfl⟩

theorem body_bare (hs : everywhere.Tidy s) (henv : env < s.frames.size)
    (hbody : ∀ form ∈ body, form.Bare)
    (h : (evalBy .strict depth).body body env scope s = (.ok v, t)) :
    everywhere.Tidy t ∧ v.Bare := by
  have hplain : (evalBy .plain depth).body body env scope s = (.ok v, t) :=
    body_deeper h (Nat.le_refl _) .tooDeep
  have hgives := Region.handles_body (evaluates_evalBy depth) s body env scope hbody
    (at_everywhere hdefs henv)
  obtain ⟨-, ht, hv⟩ := hgives s (everywhere.evaluation.refl s) hs
  rw [hplain] at ht hv
  exact ⟨ht, hv v rfl⟩

theorem bindInTurn_bare (hs : everywhere.Tidy s) (hframe : frame < s.frames.size)
    (hbs : ∀ b ∈ bs, b.2.Bare)
    (h : bindInTurn .strict (evalBy .strict depth) frame scope bs s = (.ok inner, t)) :
    s.frames.Grown t.frames ∧ everywhere.Tidy t := by
  have hplain : bindInTurn .plain (evalBy .plain depth) frame scope bs s = (.ok inner, t) :=
    bindInTurn_deeper h (Nat.le_refl _) .tooDeep
  have hgoes := goes_bindInTurn (evaluates_evalBy depth) hbs (Nat.zero_le _)
    (at_everywhere hdefs hframe)
  obtain ⟨hlater, ht, -⟩ := hgoes s (everywhere.evaluation.refl s) hs
  rw [hplain] at hlater ht
  exact ⟨hlater.1, ht⟩

end Runs

end PatternLint
