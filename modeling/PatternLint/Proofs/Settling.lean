import Mathlib.Order.Filter.Basic
import PatternLint.Evaluation.Structure
import PatternLint.Proofs.ClosedValues

/-! Evaluations that settle. An evaluation may depend on a parameter, such as the bound on its
depth; it settles if it ends in one way only along a filter of parameters. What is said of a single
evaluation is the case of a filter that has nothing to tell apart. -/

namespace PatternLint

variable {ι α β : Type} {F : Filter ι} {I : Store → Prop} {Q R : α → Prop} {B : β → Prop}

/-- From every store with `I` the evaluation ends the same way along the filter. The store that it
leaves has `I` again, and its result, if there is one, has `Q`. -/
def Settles (F : Filter ι) (I : Store → Prop) (Q : α → Prop) (e : ι → Eval α) : Prop :=
  ∀ s, I s → ∃ r t, (∀ᶠ i in F, e i s = (r, t)) ∧ I t ∧ Returns Q r

namespace Settles

variable {e : ι → Eval α} {k : ι → α → Eval β} {c : Eval α}

/-- What does not depend on the parameter. -/
theorem const (h : ∀ s, I s → I (c s).2 ∧ Returns Q (c s).1) : Settles F I Q fun _ => c :=
  fun s hs => ⟨(c s).1, (c s).2, .of_forall fun _ => rfl, h s hs⟩

theorem ret {a : α} (h : Q a) : Settles F I Q fun _ => (pure a : Eval α) :=
  const fun _ hs => ⟨hs, .ok h⟩

theorem fail {f : Fault} : Settles F I Q fun _ => (throw f : Eval α) :=
  const fun _ hs => ⟨hs, .error⟩

theorem ofExcept {r : Except Fault α} (h : Returns Q r) : Settles F I Q fun _ => Eval.ofExcept r :=
  const fun _ hs => ⟨hs, h⟩

theorem mono (h : Settles F I Q e) (hQ : ∀ a, Q a → R a) : Settles F I R e := by
  intro s hs
  obtain ⟨r, t, hrun, ht, hr⟩ := h s hs
  exact ⟨r, t, hrun, ht, hr.mono hQ⟩

theorem bind (h : Settles F I Q e) (hk : ∀ a, Q a → Settles F I B fun i => k i a) :
    Settles F I B fun i => e i >>= k i := by
  intro s hs
  obtain ⟨r, t, hrun, ht, hr⟩ := h s hs
  cases r with
  | error f =>
    refine ⟨.error f, t, hrun.mono fun i hi => ?_, ht, .error⟩
    refine (Eval.bind_apply _ _ _).trans ?_
    rw [hi]
  | ok a =>
    obtain ⟨r, u, hrun', hu, hr'⟩ := hk a (hr a rfl) t ht
    refine ⟨r, u, (hrun.and hrun').mono fun i hi => ?_, hu, hr'⟩
    refine (Eval.bind_apply _ _ _).trans ?_
    rw [hi.1]
    exact hi.2

theorem ite {p : Prop} [Decidable p] {e' : ι → Eval α} (h : p → Settles F I Q e)
    (h' : ¬p → Settles F I Q e') : Settles F I Q fun i => if p then e i else e' i := by
  by_cases hp : p
  · simp only [if_pos hp]
    exact h hp
  · simp only [if_neg hp]
    exact h' hp

/-- An attempt ends with what it ended in. -/
theorem attempt (h : Settles F I Q e) : Settles F I (Returns Q) fun i => Eval.attempt (e i) := by
  intro s hs
  obtain ⟨r, t, hrun, ht, hr⟩ := h s hs
  refine ⟨.ok r, t, hrun.mono fun i hi => ?_, ht, .ok hr⟩
  simp only [Eval.attempt, hi]

theorem withResult {γ : Type} {A : γ → Prop} {r : Except Fault γ} {V : Value → Prop}
    {j : ι → γ → Eval Value} {n : ι → Eval Value} (h : Returns A r)
    (hj : ∀ a, A a → Settles F I V fun i => j i a) (hn : Settles F I V n) :
    Settles F I V fun i => Eval.withResult r (j i) (n i) := by
  cases r with
  | ok a => exact hj a (h a rfl)
  | error f =>
    cases f with
    | signal => exact hn
    | _ => exact .fail

/-- What turns some faults into a value, and leaves all else. -/
theorem absorb {V : Value → Prop} {e : ι → Eval Value} {o : Eval Value → Eval Value} {v : Value}
    (ho : ∀ r t, ∃ r', (r' = r ∨ r' = .ok v) ∧ ∀ n s, n s = (r, t) → o n s = (r', t)) (hv : V v)
    (h : Settles F I V e) : Settles F I V fun i => o (e i) := by
  intro s hs
  obtain ⟨r, t, hrun, ht, hr⟩ := h s hs
  obtain ⟨r', hr', ho⟩ := ho r t
  refine ⟨r', t, hrun.mono fun i hi => ho _ _ hi, ht, ?_⟩
  rcases hr' with rfl | rfl
  · exact hr
  · exact .ok hv

theorem orUnknown {V : Value → Prop} {e : ι → Eval Value} (h : Settles F I V e) (hv : V .unknown) :
    Settles F I V fun i => (e i).orUnknown := by
  refine absorb (fun r t => ?_) hv h
  rcases r with (_ | _) | _
  case error.signal => exact ⟨_, .inr rfl, fun n s hn => by simp only [Eval.orUnknown, hn]⟩
  all_goals exact ⟨_, .inl rfl, fun n s hn => by simp only [Eval.orUnknown, hn]⟩

theorem orDefault {V : Value → Prop} {e : ι → Eval Value} {v : Value} (h : Settles F I V e)
    (hv : V v) : Settles F I V fun i => (e i).orDefault v := by
  refine absorb (fun r t => ?_) hv h
  rcases r with (_ | _) | _
  case error.tooDeep => exact ⟨_, .inr rfl, fun n s hn => by simp only [Eval.orDefault, hn]⟩
  all_goals exact ⟨_, .inl rfl, fun n s hn => by simp only [Eval.orDefault, hn]⟩

/-- What follows a value that has to be known. -/
theorem known {m : Material} {e : ι → Eval Value} {k : ι → Value → Eval β} {u : β}
    (h : Settles F I (Value.Tracked m) e) (hu : B u)
    (hk : ∀ v, v.MadeOf m → Settles F I B fun i => k i v) :
    Settles F I B fun i => e i >>= fun v => if v.isUnknown then pure u else k i v := by
  refine h.bind fun v hv => .ite (fun _ => .ret hu) fun hknown => hk v ?_
  exact hv.madeOf (Bool.eq_false_iff.2 hknown)

end Settles

variable {m : Material} {P : Set String}

/-- A store made of a material in which no variables but those in `P` wait for their value. -/
structure Store.Within (m : Material) (P : Set String) (s : Store) : Prop extends s.MadeOf m where
  pending : ∀ name expr, s.globals.get? name = some (.pending expr) → name ∈ P

/-- Evaluations that keep to stores of this kind. -/
abbrev SettlesIn (F : Filter ι) (m : Material) (P : Set String) (Q : α → Prop)
    (e : ι → Eval α) : Prop :=
  Settles F (Store.Within m P) Q e

section Operations

variable {s : Store} {id : FrameId} {name : String} {v : Value}

theorem Store.Within.define (h : s.Within m P) (hv : v.Tracked m) (id : FrameId) (name : String) :
    Store.Within m P { s with frames := s.frames.define id name v } := by
  refine ⟨⟨fun other k x hx => ?_, h.globals⟩, h.pending⟩
  by_cases ho : other = id
  · subst ho
    simp only [Frames.valueIn?, Frames.getElem?_define_self, Option.bind_map,
      Function.comp_def] at hx
    obtain ⟨frame, hframe, hx⟩ := Option.bind_eq_some_iff.1 hx
    rw [Table.get?_put] at hx
    split at hx
    · cases hx
      exact hv
    · exact h.frames other k x (Option.bind_eq_some_iff.2 ⟨frame, hframe, hx⟩)
  · simp only [Frames.valueIn?, Frames.getElem?_define_of_ne ho] at hx
    exact h.frames other k x hx

theorem keeps_newFrame {bindings : List (String × Value)} (h : ∀ b ∈ bindings, b.2.Tracked m)
    (outer : Option FrameId) :
    SettlesIn F m P (fun _ => True) fun _ => Eval.newFrame outer bindings := by
  refine .const fun s hs => ⟨⟨⟨fun id k x hx => ?_, hs.globals⟩, hs.pending⟩, .ok True.intro⟩
  change Frames.valueIn? (s.frames.push _) k id = some x at hx
  obtain ⟨frame, hframe, hx⟩ := Option.bind_eq_some_iff.1 hx
  rw [Array.getElem?_push] at hframe
  split at hframe
  · cases hframe
    exact h _ (Table.mem_of_get?_ofList hx)
  · exact hs.frames id k x (Option.bind_eq_some_iff.2 ⟨frame, hframe, hx⟩)

theorem keeps_define (h : v.Tracked m) (id : FrameId) (name : String) :
    SettlesIn F m P (fun _ => True) fun _ => Eval.define id name v :=
  .const fun _ hs => ⟨hs.define h id name, .ok True.intro⟩

theorem keeps_lookup (name : String) (id : FrameId) :
    SettlesIn F m P (fun o => ∀ v ∈ o, v.Tracked m) fun _ => Eval.lookup? name id := by
  refine .const fun s hs => ⟨hs, .ok fun v hv => ?_⟩
  obtain ⟨owner, -, hv⟩ := Option.bind_eq_some_iff.1 hv
  exact hs.frames _ _ _ hv

theorem keeps_set (h : v.Tracked m) (id : FrameId) (name : String) :
    SettlesIn F m P (fun _ => True) fun _ => Eval.set id name v := by
  refine .const fun s hs => ?_
  unfold Eval.set
  split
  · exact ⟨hs.define h _ name, .ok True.intro⟩
  · exact ⟨hs, .ok True.intro⟩

theorem keeps_closure {formals : Value} {body : List Value} (hr : m.runs) (hf : formals.MadeOf m)
    (hb : ∀ form ∈ body, form.MadeOf m) (frame : FrameId) :
    SettlesIn F m P (Value.Tracked m) fun _ => Eval.closure formals body frame :=
  .const fun _ hs => ⟨⟨⟨hs.frames, hs.globals⟩, hs.pending⟩, .ok (.inr (.closure hr hf hb))⟩

theorem keeps_assign (h : v.Tracked m) (name : String) (env : FrameId) (scope : Scope) :
    SettlesIn F m P (fun _ => True) fun _ => Evaluation.assign name v env scope := by
  refine .ite (fun _ => (keeps_set h env name).bind fun found _ => ?_) fun _ => ?_
  · exact .ite (fun _ => .ret True.intro) fun _ => keeps_define h _ name
  · exact .ite (fun _ => keeps_define h _ name) fun _ => keeps_define .unknown _ name

theorem Store.Within.putGlobal {g : Global} {P' : Set String} (h : s.Within m P) (hg : g.MadeOf m)
    (hP : ∀ k ∈ P, k ≠ name → k ∈ P') (hname : ∀ expr, g = .pending expr → name ∈ P') :
    Store.Within m P' { s with globals := s.globals.put name g } := by
  refine ⟨⟨h.frames, fun k g' hk => ?_⟩, fun k expr hk => ?_⟩
  · rw [Table.get?_put] at hk
    split at hk
    · cases hk
      exact hg
    · exact h.globals k g' hk
  · rw [Table.get?_put] at hk
    split at hk
    · rename_i heq
      cases hk
      exact heq ▸ hname expr rfl
    · rename_i hne
      exact hP k (h.pending k expr hk) hne

end Operations

end PatternLint
