import Mathlib.Order.Basic
import PatternLint.Fault

/-! Rules for computations that change a state and may end in a fault, by what all of their states
have and by how they may change in time. -/

namespace PatternLint

variable {σ α β : Type}

/-- What is told of the states of a computation: all that it comes to are `Fine`, and they
are `Later` ones in turn. -/
structure Drift (σ : Type) where
  Fine : σ → Prop
  Later : σ → σ → Prop
  refl : ∀ s, Later s s
  trans : ∀ {s t u}, Later s t → Later t u → Later s u

namespace Drift

variable (D : Drift σ)

/-- From all fine states later than `w` the computation comes to ones that are later still, and its
result, if there is one, has `Q` there. -/
def Goes (w : σ) (Q : σ → α → Prop) (m : ExceptT Fault (StateM σ) α) : Prop :=
  ∀ s, D.Later w s → D.Fine s →
    D.Later s (m s).2 ∧ D.Fine (m s).2 ∧ ∀ a, (m s).1 = .ok a → Q (m s).2 a

/-- The same where the result does not matter. -/
abbrev Does (w : σ) (m : ExceptT Fault (StateM σ) α) : Prop :=
  D.Goes w (fun _ _ => True) m

namespace Goes

variable {D} {w s t : σ} {Q R : σ → α → Prop} {B : σ → β → Prop}
  {m m' : ExceptT Fault (StateM σ) α} {k : α → ExceptT Fault (StateM σ) β}

theorem ret {a : α} (h : ∀ t, D.Later w t → Q t a) : D.Goes w Q (pure a) := by
  intro s hw hs
  refine ⟨D.refl s, hs, ?_⟩
  rintro _ ⟨⟩
  exact h s hw

theorem done {a : α} : D.Does w (pure a) :=
  ret fun _ _ => trivial

theorem fail {f : Fault} : D.Goes w Q (throw f : ExceptT Fault (StateM σ) α) :=
  fun s _ hs => ⟨D.refl s, hs, nofun⟩

theorem bind (h : D.Goes w Q m) (hk : ∀ t a, D.Later w t → Q t a → D.Goes t B (k a)) :
    D.Goes w B (m >>= k) := by
  intro s hw hs
  obtain ⟨hlater, hfine, hQ⟩ := h s hw hs
  have hrun : (m >>= k) s = match m s with
      | (.ok a, t) => k a t
      | (.error f, t) => (.error f, t) := by
    change ExceptT.bind m k s = _
    simp only [ExceptT.bind, ExceptT.mk, Bind.bind, StateT.bind]
    rcases m s with ⟨_ | _, _⟩ <;> rfl
  rw [hrun]
  rcases hm : m s with ⟨r, t⟩
  rw [hm] at hlater hfine hQ
  cases r with
  | error f => exact ⟨hlater, hfine, nofun⟩
  | ok a =>
    obtain ⟨hlater', hfine', hB⟩ := hk t a (D.trans hw hlater) (hQ a rfl) t (D.refl t) hfine
    exact ⟨D.trans hlater hlater', hfine', hB⟩

theorem mono (h : D.Goes w Q m) (hQ : ∀ t a, D.Later w t → Q t a → R t a) : D.Goes w R m := by
  intro s hw hs
  obtain ⟨hlater, hfine, hres⟩ := h s hw hs
  exact ⟨hlater, hfine, fun a ha => hQ _ a (D.trans hw hlater) (hres a ha)⟩

theorem ite {c : Prop} [Decidable c] (h : c → D.Goes w Q m) (h' : ¬c → D.Goes w Q m') :
    D.Goes w Q (if c then m else m') := by
  by_cases hc : c
  · rw [if_pos hc]
    exact h hc
  · rw [if_neg hc]
    exact h' hc

/-- A computation that leaves fine states as they are. -/
theorem still (h : ∀ s, D.Later w s → D.Fine s → (m s).2 = s ∧ ∀ a, (m s).1 = .ok a → Q s a) :
    D.Goes w Q m := by
  intro s hw hs
  obtain ⟨hstate, hres⟩ := h s hw hs
  rw [hstate]
  exact ⟨D.refl s, hs, hres⟩

end Goes

end Drift

end PatternLint
