import PatternLint.Evaluation.Eval

/-! How computations end: in a result or a fault of some kind. -/

namespace PatternLint

variable {α β ε : Type} {A A' : α → Prop} {B : β → Prop}

/-- A result with `A`, or a fault with `F`. -/
def EndsIn (A : α → Prop) (F : ε → Prop) : Except ε α → Prop
  | .ok a => A a
  | .error f => F f

namespace EndsIn

variable {F F' : ε → Prop} {r : Except ε α} {k : α → Except ε β}

/-- Endings are weakened on both sides, for results and for faults. -/
theorem mono (h : EndsIn A F r) (hA : ∀ a, A a → A' a) (hF : ∀ f, F f → F' f) : EndsIn A' F' r := by
  cases r with
  | ok a => exact hA a h
  | error f => exact hF f h

/-- What the first step ends in decides what the second may end in. -/
theorem bind (h : EndsIn A F r) (hk : ∀ a, A a → EndsIn B F (k a)) : EndsIn B F (r >>= k) := by
  cases r with
  | ok a => exact hk a h
  | error f => exact h

theorem and (h : EndsIn A F r) (h' : EndsIn A' F' r) :
    EndsIn (fun a => A a ∧ A' a) (fun f => F f ∧ F' f) r := by
  cases r <;> exact ⟨h, h'⟩

theorem of_ok (h : EndsIn A F r) {a : α} (hr : r = .ok a) : A a := by
  subst hr
  exact h

/-- Read for a computation that is known to fail. -/
theorem of_error (h : EndsIn A F r) {f : ε} (hr : r = .error f) : F f := by
  subst hr
  exact h

end EndsIn

namespace Eval

/-- Two steps, run from a store: the second goes on in the store that the first has left. -/
theorem bind_apply (m : Eval α) (k : α → Eval β) (s : Store) :
    (m >>= k) s = match m s with
      | (.ok a, t) => k a t
      | (.error f, t) => (.error f, t) := by
  change ExceptT.bind m k s = _
  simp only [ExceptT.bind, ExceptT.mk, Bind.bind, StateT.bind]
  rcases m s with ⟨_ | _, _⟩ <;> rfl

/-- A sequence that has a result took both of its steps. -/
theorem bind_eq_ok {m : Eval α} {k : α → Eval β} {s u : Store} {b : β}
    (h : (m >>= k) s = (.ok b, u)) : ∃ a t, m s = (.ok a, t) ∧ k a t = (.ok b, u) := by
  rw [bind_apply] at h
  split at h
  · exact ⟨_, _, ‹_›, h⟩
  · cases h

/-- A fault ends the whole computation. -/
theorem bind_error {m : Eval α} {k : α → Eval β} {s : Store} {f : Fault} (h : (m s).1 = .error f) :
    ((m >>= k) s).1 = .error f := by
  rw [bind_apply]
  rcases hm : m s with ⟨_ | _, _⟩ <;> rw [hm] at h <;> cases h
  rfl

theorem pure_eq_ok {a b : α} {s t : Store} (h : (pure a : Eval α) s = (.ok b, t)) :
    a = b ∧ s = t := by
  cases h
  exact ⟨rfl, rfl⟩

/-- A default is not used where there is a value. -/
theorem orDefault_ok {m : Eval Value} {s t : Store} {v : Value} (default : Value)
    (h : m s = (.ok v, t)) : m.orDefault default s = (.ok v, t) := by
  simp only [orDefault, h]

/-- Conversely, a value that is not the default was found. -/
theorem orDefault_eq_ok {m : Eval Value} {s t : Store} {v default : Value}
    (h : m.orDefault default s = (.ok v, t)) (hv : v ≠ default) : m s = (.ok v, t) := by
  unfold orDefault at h
  split at h
  · cases h
    exact (hv rfl).elim
  · exact h

/-- However the store is, `m` ends in a result with `A` or a fault with `F`. -/
def Always (A : α → Prop) (F : Fault → Prop) (m : Eval α) : Prop :=
  ∀ s, EndsIn A F (m s).1

namespace Always

variable {F F' : Fault → Prop} {m : Eval α} {k : α → Eval β}

theorem ret {a : α} (h : A a) : Always A F (pure a) :=
  fun _ => h

theorem fail {f : Fault} (h : F f) : Always A F (throw f) :=
  fun _ => h

/-- A computation without effects ends alike from every store. -/
theorem ofExcept {r : Except Fault α} (h : EndsIn A F r) : Always A F (Eval.ofExcept r) :=
  fun _ => h

theorem bind (h : Always A F m) (hk : ∀ a, A a → Always B F (k a)) : Always B F (m >>= k) := by
  intro s
  rw [bind_apply]
  have hm := h s
  rcases hms : m s with ⟨f | a, t⟩ <;> rw [hms] at hm
  · exact hm
  · exact hk a hm t

theorem trivial (m : Eval α) : Always (fun _ => True) (fun _ => True) m := by
  intro s
  rcases (m s).1 with f | a <;> exact True.intro

/-- The value in place of a fault is to have the property, too. -/
theorem orDefault {B : Value → Prop} {n : Eval Value} {v : Value} (h : Always B F n) (hv : B v) :
    Always B F (n.orDefault v) := by
  intro s
  have hn := h s
  unfold Eval.orDefault
  rcases hns : n s with ⟨f | u, t⟩ <;> rw [hns] at hn
  · cases f <;> first | exact hv | exact hn
  · exact hn

end Always

end Eval

end PatternLint
