import PatternLint.Evaluation.Structure
import PatternLint.Proofs.Simulation

/-! Structural evaluation has every known value that evaluation has. It goes into constructions
itself and leaves all else to evaluation; as long as nothing on the way is unknown, the two do the
same. But it goes deeper, so it may come to the bound of its depth where evaluation does not. -/

namespace PatternLint

namespace Evaluation

variable {α : Type} {limit : Fault} {m m' : Eval Value} {k k' : Value → Eval Value} {v : Value}

/-- The known results of `m` are results of `m'`, with the same effects, unless
`m'` comes to a limit. -/
def Carries (limit : Fault) (m m' : Eval Value) : Prop :=
  ∀ ⦃s v t⦄, m s = (.ok v, t) → v ≠ .unknown → m' s = (.ok v, t) ∨ (m' s).1 = .error limit

namespace Carries

theorem refl (m : Eval Value) : Carries limit m m :=
  fun _ _ _ h _ => .inl h

/-- What follows an unknown value has to be unknown. -/
theorem bind (h : Carries limit m m') (hk : ∀ v, v ≠ .unknown → Carries limit (k v) (k' v))
    (hlost : ∀ ⦃s v t⦄, k .unknown s = (.ok v, t) → v = .unknown) :
    Carries limit (m >>= k) (m' >>= k') := by
  intro s b u hrun hb
  obtain ⟨a, t, ha, hka⟩ := Eval.bind_eq_ok hrun
  have hknown : a ≠ .unknown := by
    rintro rfl
    exact hb (hlost hka)
  rcases h ha hknown with h | h
  · rw [Eval.bind_apply, h]
    exact hk a hknown hka hb
  · exact .inr (Eval.bind_error h)

theorem known (h : Carries limit m m') (hk : ∀ v, Carries limit (k v) (k' v)) :
    Carries limit (m >>= fun v => if v.isUnknown then return .unknown else k v)
      (m' >>= fun v => if v.isUnknown then return .unknown else k' v) := by
  refine h.bind (fun v _ => ?_) fun s v t hrun => (Eval.pure_eq_ok hrun).1.symm
  split
  · exact refl _
  · exact hk v

theorem withResult {r : Except Fault α} {j j' : α → Eval Value}
    (h : ∀ a, Carries limit (j a) (j' a)) :
    Carries limit (Eval.withResult r j) (Eval.withResult r j') := by
  cases r with
  | ok a => exact h a
  | error f => exact (by cases f <;> exact refl _)

end Carries

section Template

variable {ev ev' : Evaluator} {env : FrameId} {scope : Scope}

/-- Anything but a `list` without items, in whose place evaluation has `nil`. -/
def Proper (v : Value) : Prop :=
  v ≠ .list []

end Template

section Construction

variable {p : Policy} {ev ev' : Evaluator} {env : FrameId} {scope : Scope} {s t : Store}
  {f : Primitive} {name : String} {args values vs : List Value}

theorem callPrimitive_eq_ok (h : callPrimitive f args s = (.ok v, t)) (hv : v ≠ .unknown) :
    f args = .ok v ∧ t = s := by
  unfold callPrimitive at h
  split at h
  · exact (hv (Eval.pure_eq_ok h).1.symm).elim
  · cases hf : f args with
    | ok b =>
      rw [hf] at h
      obtain ⟨rfl, rfl⟩ := Eval.pure_eq_ok h
      exact ⟨rfl, rfl⟩
    | error e =>
      rw [hf] at h
      dsimp only at h
      split at h
      · exact (hv (Eval.pure_eq_ok h).1.symm).elim
      · cases h

theorem callByName_primitive (hs : SpecialForm.named? name = none)
    (hd : scope.defs.functions.get? name = none ∧ scope.defs.macros.get? name = none ∧
      scope.defs.aliases.get? name = none) (hp : Primitive.named? name = some f) :
    callByName p ev name args env scope = (do
      match ← ev.known args env scope with
      | none => return .unknown
      | some values => callPrimitive f values) := by
  have hr : scope.defs.resolve name = name := by
    simp [Definitions.resolve, Definitions.maxLinks, Definitions.follow, hd.2.2]
  rewrite [callByName, hs]
  dsimp only
  rewrite [hr, hd.1, hd.2.1, hs, hp]
  rfl

theorem operands_cons_eq_ok {arg : Value} {rest : List Value}
    (h : ev.operands (arg :: rest) env scope s = (.ok vs, t)) :
    ∃ v more u, vs = v :: more ∧ ev arg env scope s = (.ok v, u) ∧
      ev.operands rest env scope u = (.ok more, t) := by
  rw [Evaluator.operands, List.mapM_cons] at h
  obtain ⟨v, u, hv, h⟩ := Eval.bind_eq_ok h
  obtain ⟨more, w, hmore, h⟩ := Eval.bind_eq_ok h
  obtain ⟨rfl, rfl⟩ := Eval.pure_eq_ok h
  exact ⟨v, more, u, rfl, hv, hmore⟩

end Construction

end Evaluation

open Evaluation

end PatternLint
