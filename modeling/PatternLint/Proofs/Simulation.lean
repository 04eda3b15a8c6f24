import PatternLint.Evaluation.Evaluator
import PatternLint.Proofs.Endings
import PatternLint.Proofs.PlainValue
import Mathlib.Order.Defs.PartialOrder

/-! Two evaluations side by side. They run in step, or one of them has come to an end that says
nothing about the other. -/

namespace PatternLint

variable {α β : Type}

section Faults

variable {f : Fault} {n : Eval Value} {s t : Store}

/-- How a fault goes on depends on its kind alone. -/
theorem Eval.withResult_error (k : α → Eval Value) (n : Eval Value) :
    Eval.withResult (.error f) k n = if f.handling = .signal then n else throw f := by
  cases f <;> rfl

/-- Of all faults only signals become unknown. -/
theorem Eval.orUnknown_error (h : n s = (.error f, t)) :
    n.orUnknown s = (if f.handling = .signal then .ok .unknown else .error f, t) := by
  cases f <;> simp only [Eval.orUnknown, h, Fault.handling] <;> rfl

/-- Of all faults only that of being too deep becomes the default. -/
theorem Eval.orDefault_error (v : Value) (h : n s = (.error f, t)) :
    n.orDefault v s = (if f.handling = .depth then .ok v else .error f, t) := by
  cases f <;> simp only [Eval.orDefault, h, Fault.handling] <;> rfl

end Faults

section OrDefault

variable {m m' : Eval Value} {s s' : Store} {v : Value} {R : Value → Value → Prop}

/-- Using the default takes nothing back. -/
theorem Eval.orDefault_snd : (m.orDefault v s).2 = (m s).2 := by
  unfold Eval.orDefault
  split <;> simp_all

/-- Any other fault goes through. -/
theorem Eval.orDefault_refused {f : Fault} (v : Value) (h : (m s).1 = .error f)
    (hf : f.handling ≠ .depth) : (m.orDefault v s).1 = .error f := by
  rcases hm : m s with ⟨r, t⟩
  rw [hm] at h
  obtain rfl : r = .error f := h
  rw [Eval.orDefault_error v hm, if_neg hf]

/-- Both sides use their default or neither does, since faults of one kind are handled alike. -/
theorem Agrees.orDefault (h : Agrees R (m s).1 (m' s').1) (hv : R v v) :
    Agrees R (m.orDefault v s).1 (m'.orDefault v s').1 := by
  rcases hm : m s with ⟨r, t⟩
  rcases hm' : m' s' with ⟨r', t'⟩
  rw [hm, hm'] at h
  cases h with
  | ok h =>
    rw [Eval.orDefault_ok v hm, Eval.orDefault_ok v hm']
    exact .ok h
  | error h =>
    rw [Eval.orDefault_error v hm, Eval.orDefault_error v hm', h]
    dsimp only
    split
    · exact .ok hv
    · exact .error h

end OrDefault

/-- What is related in two evaluations. The relation grows along a `World`; `own` frames are those
that may be changed directly, and a fault of the first that is `refused` ends everything. Where it
is `tolerant`, a value may be unknown on one side only. In a `stray` world the first has gone where
the second does not go. -/
structure Simulation where
  World : Type
  [order : Preorder World]
  labels : World → Labels
  own : World → FrameId → FrameId → Prop
  store : World → Store → Store → Prop
  scope : World → Scope → Scope → Prop
  first : Policy
  second : Policy
  tolerant : Prop
  refused : Fault → Prop
  stray : World → Prop := fun _ => False
  stray_mono : ∀ ⦃w w'⦄, w ≤ w' → stray w → stray w' := by exact fun _ _ _ h => h
  stray_strict : ∀ ⦃w⦄, stray w → ¬tolerant := by exact fun _ h => h.elim

attribute [instance] Simulation.order

namespace Simulation

variable (S : Simulation)

abbrev frames (w : S.World) : FrameId → FrameId → Prop :=
  (S.labels w).frames

def never : α → Prop := fun _ => False

/-- A run that ended with a result that was given up, or with a fault that is not compared. -/
def Off (refused : Fault → Prop) (given : α → Prop) : Except Fault α → Prop
  | .ok a => S.tolerant ∧ given a
  | .error f => refused f ∨ S.tolerant

/-- How two runs compare. They come to the same, or one of them is off, or the first has gone
astray: it has come to the same as some other run would have. -/
inductive Outcome (w : S.World) (given : α → Prop) (A : S.World → α → α → Prop)
    (r r' : Except Fault α × Store) : Prop where
  | agree (w' : S.World) (hw : w ≤ w') (hs : S.store w' r.2 r'.2) (hr : Agrees (A w') r.1 r'.1)
  | first (h : S.Off S.refused given r.1)
  | second (h : S.Off never given r'.1)
  | stray (w' : S.World) (other : Except Fault α × Store) (hw : w ≤ w') (hstray : S.stray w')
      (hs : S.store w' r.2 other.2) (hr : Agrees (A w') r.1 other.1)

def Sim (w : S.World) (given : α → Prop) (A : S.World → α → α → Prop) (m m' : Eval α) : Prop :=
  ∀ s s', S.store w s s' → S.Outcome w given A (m s) (m' s')

def Known (w : S.World) : Value → Value → Prop :=
  Matches (S.labels w)

def AllKnown (w : S.World) : List Value → List Value → Prop :=
  MatchesAll (S.labels w)

def Loosely (w : S.World) : Value → Value → Prop :=
  Loose S.tolerant (S.labels w)

def Bound (w : S.World) : List (String × Value) → List (String × Value) → Prop :=
  List.Forall₂ fun b b' => b.1 = b'.1 ∧ S.Loosely w b.2 b'.2

abbrev SameGlobal (w : S.World) : Global → Global → Prop :=
  Global.Same S.tolerant (S.labels w)

def isUnknown (v : Value) : Prop := v = .unknown

/-- Frames and scopes at which two evaluations are. -/
structure At (w : S.World) (env env' : FrameId) (scope scope' : Scope) : Prop where
  env : S.frames w env env'
  scope : S.scope w scope scope'

/-- Evaluators that stay in step, or give up where a value is unknown. -/
def Follows (ev ev' : Evaluator) : Prop :=
  ∀ ⦃w expr expr' env env' scope scope'⦄, S.Known w expr expr' → S.At w env env' scope scope' →
    S.Sim w isUnknown S.Known (ev expr env scope) (ev' expr' env' scope')

/-- Evaluators that stay in step even where a value is unknown. -/
def FollowsLoosely (ev ev' : Evaluator) : Prop :=
  ∀ ⦃w expr expr' env env' scope scope'⦄, S.Known w expr expr' → S.At w env env' scope scope' →
    S.Sim w never S.Loosely (ev expr env scope) (ev' expr' env' scope')

def Handles (handler handler' : Handler) : Prop :=
  ∀ ⦃w args args' env env' scope scope'⦄, S.AllKnown w args args' →
    S.At w env env' scope scope' →
    S.Sim w isUnknown S.Known (handler args env scope) (handler' args' env' scope')

variable {S} {w : S.World} {given given' : α → Prop} {lost : β → Prop}
  {A A' : S.World → α → α → Prop} {B : S.World → β → β → Prop} {m m' : Eval α} {a a' : α}
  {k k' : α → Eval β} {refused : Fault → Prop}

/-- Related values, without any step. -/
theorem Sim.ret (h : A w a a') : S.Sim w given A (pure a) (pure a') := by
  intro s s' hs
  exact .agree w le_rfl hs (.ok h)

theorem Sim.fail {f f' : Fault} (h : f.handling = f'.handling) :
    S.Sim w given A (throw f) (throw f') := by
  intro s s' hs
  exact .agree w le_rfl hs (.error h)

/-- Computations without effects are in step if their results agree. -/
theorem Sim.ofExcept {r r' : Except Fault α} (h : Agrees (A w) r r') :
    S.Sim w given A (Eval.ofExcept r) (Eval.ofExcept r') := by
  intro s s' hs
  exact .agree w le_rfl hs h

theorem Off.mono (hg : ∀ a, given a → given' a) {r : Except Fault α} (h : S.Off refused given r) :
    S.Off refused given' r := by
  cases r with
  | ok a => exact ⟨h.1, hg a h.2⟩
  | error f => exact h

/-- Where nothing is tolerated, a run is off only if it is refused. -/
theorem Off.eq_error {r : Except Fault α} (ht : ¬S.tolerant) (h : S.Off refused given r) :
    ∃ f, r = .error f ∧ refused f := by
  cases r with
  | ok a => exact (ht h.1).elim
  | error f => exact ⟨f, rfl, h.resolve_right ht⟩

/-- Nothing is off if nothing is tolerated and nothing refused. -/
theorem Off.not_never {r : Except Fault α} (ht : ¬S.tolerant) : ¬S.Off never given r := by
  intro h
  obtain ⟨_, _, hf⟩ := Off.eq_error ht h
  exact hf

namespace Outcome

variable {r r' : Except Fault α × Store}

theorem mono (h : S.Outcome w given A r r') (hg : ∀ a, given a → given' a)
    (hA : ∀ w' a a', A w' a a' → A' w' a a') : S.Outcome w given' A' r r' := by
  cases h with
  | agree w' hw hs hr => exact .agree w' hw hs (hr.mono (hA w'))
  | first h => exact .first (h.mono hg)
  | second h => exact .second (h.mono hg)
  | stray w' other hw hstray hs hr => exact .stray w' other hw hstray hs (hr.mono (hA w'))

/-- What comes later in a larger world. -/
theorem later {w' : S.World} (hw : w ≤ w') (h : S.Outcome w' given A r r') :
    S.Outcome w given A r r' := by
  cases h with
  | agree w'' hw' hs hr => exact .agree w'' (le_trans hw hw') hs hr
  | first h => exact .first h
  | second h => exact .second h
  | stray w'' other hw' hstray hs hr => exact .stray w'' other (le_trans hw hw') hstray hs hr

/-- A run that comes to the same as some other one from a stray world on. -/
theorem astray {w' : S.World} {other : Except Fault α × Store} (hstray : S.stray w') (hw : w ≤ w')
    (h : S.Outcome w' given A r other) : S.Outcome w given A r r' := by
  cases h with
  | agree w'' hw' hs hr => exact .stray w'' other (le_trans hw hw') (S.stray_mono hw' hstray) hs hr
  | first h => exact .first h
  | second h => exact (h.not_never (S.stray_strict hstray)).elim
  | stray w'' other hw' hstray hs hr => exact .stray w'' other (le_trans hw hw') hstray hs hr

/-- Where nothing is tolerated, no result is given up. -/
theorem strict (ht : ¬S.tolerant) (h : S.Outcome w given A r r') (given' : α → Prop) :
    S.Outcome w given' A r r' := by
  have off : ∀ {refused : Fault → Prop} {r : Except Fault α}, S.Off refused given r →
      S.Off refused given' r := by
    intro refused r h
    obtain ⟨f, rfl, hf⟩ := Off.eq_error ht h
    exact .inl hf
  cases h with
  | agree w' hw hs hr => exact .agree w' hw hs hr
  | first h => exact .first (off h)
  | second h => exact .second (off h)
  | stray w' other hw hstray hs hr => exact .stray w' other hw hstray hs hr

/-- Where nothing goes astray. -/
theorem ends (h : S.Outcome w given A r r') (hn : ∀ w, ¬S.stray w) :
    (∃ w', w ≤ w' ∧ S.store w' r.2 r'.2 ∧ Agrees (A w') r.1 r'.1) ∨
      S.Off S.refused given r.1 ∨ S.Off never given r'.1 := by
  cases h with
  | agree w' hw hs hr => exact .inl ⟨w', hw, hs, hr⟩
  | first h => exact .inr (.inl h)
  | second h => exact .inr (.inr h)
  | stray w' other hw hstray hs hr => exact (hn w' hstray).elim

end Outcome

/-- More may be given up, and less may be known of results. -/
theorem Sim.mono (h : S.Sim w given A m m') (hg : ∀ a, given a → given' a)
    (hA : ∀ w' a a', A w' a a' → A' w' a a') : S.Sim w given' A' m m' :=
  fun s s' hs => (h s s' hs).mono hg hA

/-- Where nothing is tolerated, refused or astray, two runs come to the same. -/
theorem Sim.agrees {s s' : Store} (ht : ¬S.tolerant) (href : ∀ f, ¬S.refused f)
    (hstray : ∀ w, ¬S.stray w) (h : S.Sim w given A m m') (hs : S.store w s s') :
    ∃ w', w ≤ w' ∧ S.store w' (m s).2 (m' s').2 ∧ Agrees (A w') (m s).1 (m' s').1 := by
  obtain hends | hoff | hoff := (h s s' hs).ends hstray
  · exact hends
  · obtain ⟨f, -, hf⟩ := Off.eq_error ht hoff
    exact (href f hf).elim
  · exact (Off.not_never ht hoff).elim

/-- Results that are given up stay so, since what follows gives up on them. -/
theorem Sim.bind (h : S.Sim w given A m m')
    (hk : ∀ ⦃w'⦄, w ≤ w' → ∀ ⦃a a'⦄, A w' a a' → S.Sim w' lost B (k a) (k' a'))
    (hg : S.tolerant → ∀ a, given a → ∀ s, S.Off S.refused lost (k a s).1)
    (hg' : S.tolerant → ∀ a, given a → ∀ s, S.Off never lost (k' a s).1) :
    S.Sim w lost B (m >>= k) (m' >>= k') := by
  intro s s' hs
  have off : ∀ {refused : Fault → Prop} {n : Eval α} {j : α → Eval β} {t : Store},
      (S.tolerant → ∀ a, given a → ∀ s, S.Off refused lost (j a s).1) →
      S.Off refused given (n t).1 → S.Off refused lost ((n >>= j) t).1 := by
    intro refused n j t hj hn
    rw [Eval.bind_apply]
    rcases hnt : n t with ⟨_ | a, u⟩ <;> rw [hnt] at hn
    · exact hn
    · exact hj hn.1 a hn.2 u
  cases h s s' hs with
  | agree w' hw hs' hr =>
    rw [Eval.bind_apply, Eval.bind_apply]
    rcases hms : m s with ⟨r, t⟩
    rcases hms' : m' s' with ⟨r', t'⟩
    rw [hms, hms'] at hs' hr
    cases hr with
    | error hff => exact .agree w' hw hs' (.error hff)
    | ok ha => exact (hk hw ha t t' hs').later hw
  | first h => exact .first (off hg h)
  | second h => exact .second (off hg' h)
  | stray w' other hw hstray hs' hr =>
    rw [Eval.bind_apply]
    rcases hms : m s with ⟨r, t⟩
    obtain ⟨r', t'⟩ := other
    rw [hms] at hs' hr
    cases hr with
    | error hff => exact .stray w' (.error _, t') hw hstray hs' (.error hff)
    | ok ha => exact .astray hstray hw (hk hw ha t t' hs')

/-- Steps of which no result is given up follow one another. -/
theorem Sim.seq (h : S.Sim w never A m m')
    (hk : ∀ ⦃w'⦄, w ≤ w' → ∀ ⦃a a'⦄, A w' a a' → S.Sim w' lost B (k a) (k' a')) :
    S.Sim w lost B (m >>= k) (m' >>= k') :=
  h.bind hk (fun _ _ hn => hn.elim) (fun _ _ hn => hn.elim)

theorem off_pure {u : β} (ht : S.tolerant) (hu : lost u) (s : Store) :
    S.Off refused lost ((pure u : Eval β) s).1 :=
  ⟨ht, hu⟩

/-- Where a value may be unknown, what comes after it does not matter. -/
theorem off_bind {n : Eval α} {s : Store} (ht : S.tolerant)
    (hk : ∀ a t, S.Off refused lost (k a t).1) : S.Off refused lost ((n >>= k) s).1 := by
  rw [Eval.bind_apply]
  split
  · exact hk _ _
  · exact .inr ht

/-- What follows a value that has to be known. -/
theorem Sim.known {n n' : Eval Value} {j j' : Value → Eval β} {u : β}
    (h : S.Sim w isUnknown S.Known n n') (hu : lost u) (hB : ∀ w', B w' u u)
    (hj : ∀ ⦃w'⦄, w ≤ w' → ∀ ⦃v v'⦄, S.Known w' v v' → S.Sim w' lost B (j v) (j' v')) :
    S.Sim w lost B (n >>= fun v => if v.isUnknown then pure u else j v)
      (n' >>= fun v => if v.isUnknown then pure u else j' v) := by
  refine h.bind ?_ ?_ ?_
  · intro w' hw v v' hv
    simp only [hv.isUnknown_eq]
    split
    · exact .ret (hB w')
    · exact hj hw hv
  · rintro ht _ rfl s
    exact off_pure ht hu s
  · rintro ht _ rfl s
    exact off_pure ht hu s

/-- What follows a result one form of which leads nowhere. -/
theorem Sim.unless {a : α} {u : β} (h : S.Sim w (· = a) A m m') (hk : k a = pure u)
    (hk' : k' a = pure u) (hu : lost u)
    (hj : ∀ ⦃w'⦄, w ≤ w' → ∀ ⦃b b'⦄, A w' b b' → S.Sim w' lost B (k b) (k' b')) :
    S.Sim w lost B (m >>= k) (m' >>= k') := by
  refine h.bind hj ?_ ?_
  · rintro ht _ rfl s
    rw [hk]
    exact off_pure ht hu s
  · rintro ht _ rfl s
    rw [hk']
    exact off_pure ht hu s

/-- A value that may be unknown on one side is given up there. -/
theorem Sim.loose {v v' : Value} (h : S.Loosely w v v') :
    S.Sim w isUnknown S.Known (pure v) (pure v') := by
  rcases h with h | ⟨ht, rfl | rfl⟩
  · exact .ret h
  · exact fun s s' _ => .first ⟨ht, rfl⟩
  · exact fun s s' _ => .second ⟨ht, rfl⟩

/-- Results that agree are continued in step, signals replaced in step. -/
theorem Sim.withResult {γ : Type} {R : γ → γ → Prop} {r r' : Except Fault γ} {j j' : γ → Eval Value}
    {n n' : Eval Value} (h : Agrees R r r')
    (hj : ∀ b b', R b b' → S.Sim w isUnknown S.Known (j b) (j' b'))
    (hn : S.Sim w isUnknown S.Known n n') :
    S.Sim w isUnknown S.Known (Eval.withResult r j n) (Eval.withResult r' j' n') := by
  cases h with
  | ok hb => exact hj _ _ hb
  | @error f g hfg =>
    rw [Eval.withResult_error, Eval.withResult_error, hfg]
    split
    · exact hn
    · exact .fail hfg

/-- Runs in step stay so when faults of one handling are turned into an unknown result. -/
theorem Sim.absorb {n n' : Eval Value} {o : Eval Value → Eval Value} {kind : Handling}
    (ho : ∀ {n : Eval Value} {s f t}, n s = (.error f, t) →
      o n s = (if f.handling = kind then .ok .unknown else .error f, t))
    (hok : ∀ {n : Eval Value} {s v t}, n s = (.ok v, t) → o n s = (.ok v, t))
    (href : ∀ f, S.refused f → f.handling ≠ kind) (h : S.Sim w isUnknown S.Known n n') :
    S.Sim w isUnknown S.Known (o n) (o n') := by
  have off : ∀ {refused : Fault → Prop} {n : Eval Value} {s : Store},
      (∀ f, refused f → f.handling ≠ kind) → S.Off refused isUnknown (n s).1 →
      S.Off refused isUnknown (o n s).1 := by
    intro refused n s href hoff
    rcases hn : n s with ⟨f | v, t⟩ <;> rw [hn] at hoff
    · rw [ho hn]
      split
      · rename_i hf
        exact ⟨hoff.resolve_left fun hr => href f hr hf, rfl⟩
      · exact hoff
    · rw [hok hn]
      exact hoff
  have same : ∀ (n n' : Eval Value) (s s' : Store) {w' : S.World}, S.store w' (n s).2 (n' s').2 →
      Agrees (S.Known w') (n s).1 (n' s').1 →
      S.store w' (o n s).2 (o n' s').2 ∧ Agrees (S.Known w') (o n s).1 (o n' s').1 := by
    intro n n' s s' w' hs hr
    rcases hn : n s with ⟨r, t⟩
    rcases hn' : n' s' with ⟨r', t'⟩
    rw [hn, hn'] at hs hr
    cases hr with
    | ok hv =>
      rw [hok hn, hok hn']
      exact ⟨hs, .ok hv⟩
    | error hfg =>
      rw [ho hn, ho hn', hfg]
      refine ⟨hs, ?_⟩
      dsimp only
      split
      · exact .ok .unknown
      · exact .error hfg
  intro s s' hs
  cases h s s' hs with
  | agree w' hw hs' hr =>
    obtain ⟨hs', hr⟩ := same n n' s s' hs' hr
    exact .agree w' hw hs' hr
  | first h => exact .first (off href h)
  | second h => exact .second (off (fun _ hf => hf.elim) h)
  | stray w' other hw hstray hs' hr =>
    -- some evaluation ends in the other run, too
    obtain ⟨hs', hr⟩ := same n (fun _ => other) s other.2 hs' hr
    exact .stray w' _ hw hstray hs' hr

theorem Sim.orUnknown {n n' : Eval Value} (href : ∀ f, S.refused f → f.handling ≠ .signal)
    (h : S.Sim w isUnknown S.Known n n') :
    S.Sim w isUnknown S.Known n.orUnknown n'.orUnknown :=
  h.absorb Eval.orUnknown_error (fun hn => by simp only [Eval.orUnknown, hn]) href

/-- A result that is not evaluated is not refused. -/
theorem Sim.ofExcept_orUnknown {r r' : Except Fault Value} (h : Agrees (S.Known w) r r') :
    S.Sim w isUnknown S.Known (Eval.orUnknown (Eval.ofExcept r))
      (Eval.orUnknown (Eval.ofExcept r')) := by
  intro s s' hs
  cases h with
  | ok hv => exact .agree w le_rfl hs (.ok hv)
  | @error f f' hff =>
    rw [Eval.orUnknown_error (rfl : Eval.ofExcept (.error f) s = (.error f, s)),
      Eval.orUnknown_error (rfl : Eval.ofExcept (.error f') s' = (.error f', s')), hff]
    refine .agree w le_rfl hs ?_
    dsimp only
    split
    · exact .ok .unknown
    · exact .error hff

/-- The evaluation as a whole stays in step where it handles being too deep. -/
theorem Sim.orDefault {n n' : Eval Value} (href : ∀ f, S.refused f → f.handling ≠ .depth)
    (h : S.Sim w isUnknown S.Known n n') :
    S.Sim w isUnknown S.Known (n.orDefault .unknown) (n'.orDefault .unknown) :=
  h.absorb (Eval.orDefault_error _) (fun hn => by simp only [Eval.orDefault, hn]) href

/-- What follows an attempt, and passes faults on. -/
theorem Sim.rescue {j j' : Except Fault α → Eval β} (h : S.Sim w never A m m')
    (hok : ∀ ⦃w'⦄, w ≤ w' → ∀ ⦃a a'⦄, A w' a a' → S.Sim w' lost B (j (.ok a)) (j' (.ok a')))
    (herr : ∀ ⦃w'⦄, w ≤ w' → ∀ ⦃f f'⦄, f.handling = f'.handling →
      S.Sim w' lost B (j (.error f)) (j' (.error f')))
    (hoff : ∀ f s, (j (.error f) s).1 = .error f) (hoff' : ∀ f s, (j' (.error f) s).1 = .error f) :
    S.Sim w lost B (m.attempt >>= j) (m'.attempt >>= j') := by
  have off : ∀ {refused : Fault → Prop} {n : Eval α} {i : Except Fault α → Eval β} {t : Store},
      (∀ f s, (i (.error f) s).1 = .error f) → S.Off refused never (n t).1 →
      S.Off refused lost (i (n t).1 (n t).2).1 := by
    intro refused n i t hi hn
    rcases hnt : n t with ⟨f | a, u⟩ <;> rw [hnt] at hn
    · rw [hi]
      exact hn
    · exact hn.2.elim
  have next : ∀ {w' : S.World} {r r' : Except Fault α}, w ≤ w' → Agrees (A w') r r' →
      S.Sim w' lost B (j r) (j' r') := by
    intro w' r r' hw hr
    cases hr with
    | ok ha => exact hok hw ha
    | error hff => exact herr hw hff
  intro s s' hs
  change S.Outcome w lost B (j (m s).1 (m s).2) (j' (m' s').1 (m' s').2)
  cases h s s' hs with
  | agree w' hw hs' hr => exact (next hw hr _ _ hs').later hw
  | first h => exact .first (off hoff h)
  | second h => exact .second (off hoff' h)
  | stray w' other hw hstray hs' hr => exact .astray hstray hw (next hw hr _ _ hs')

/-- What the operations of an evaluation have to keep, those on global variables apart. -/
structure Sound (S : Simulation) : Prop where
  frames_mono : ∀ ⦃w w'⦄, w ≤ w' → ∀ i j, S.frames w i j → S.frames w' i j
  serials_mono : ∀ ⦃w w'⦄, w ≤ w' → ∀ i j, (S.labels w).serials i j → (S.labels w').serials i j
  own_mono : ∀ ⦃w w' i j⦄, w ≤ w' → S.own w i j → S.own w' i j
  own_frames : ∀ ⦃w i j⦄, S.own w i j → S.frames w i j
  scope_mono : ∀ ⦃w w' c c'⦄, w ≤ w' → S.scope w c c' → S.scope w' c c'
  scope_eq : ∀ ⦃w c c'⦄, S.scope w c c' →
    c.defs = c'.defs ∧ c.expanding = c'.expanding ∧ c.loopLimit = c'.loopLimit
  scope_defs : ∀ ⦃w c c'⦄, S.scope w c c' → ∀ name d,
    c.defs.functions.get? name = some d ∨ c.defs.macros.get? name = some d →
    S.Known w d.formals d.formals ∧ S.AllKnown w d.body d.body
  binding : ∀ ⦃w c c'⦄, S.scope w c c' → ∀ names, S.scope w (c.binding names) (c'.binding names)
  expandingToo : ∀ ⦃w c c'⦄, S.scope w c c' → ∀ name,
    S.scope w (c.expandingToo name) (c'.expandingToo name)
  entering : ∀ ⦃w c c' i j⦄, S.scope w c c' → S.own w i j → ∀ name names,
    S.scope w (c.entering name i names) (c'.entering name j names)
  newFrame : ∀ ⦃w i j b b'⦄, Option.Rel (S.frames w) i j → S.Bound w b b' →
    S.Sim w never S.own (Eval.newFrame i b) (Eval.newFrame j b')
  define : ∀ ⦃w i j v v'⦄, S.own w i j → S.Loosely w v v' → ∀ name,
    S.Sim w never (fun _ _ _ => True) (Eval.define i name v) (Eval.define j name v')
  lookup : ∀ ⦃w i j⦄, S.frames w i j → ∀ name,
    S.Sim w never (fun w => Option.Rel (S.Loosely w)) (Eval.lookup? name i) (Eval.lookup? name j)
  assign : ∀ ⦃w i j c c' v v'⦄, S.At w i j c c' → S.Loosely w v v' → ∀ name,
    S.Sim w never (fun _ _ _ => True) (S.first.assign name v i c) (S.second.assign name v' j c')
  closure : ∀ ⦃w i j f f' b b'⦄, S.frames w i j → S.Known w f f' → S.AllKnown w b b' →
    S.Sim w never S.Known (Eval.closure f b i) (Eval.closure f' b' j)
  operand : ∀ ⦃ev ev'⦄, S.Follows ev ev' →
    S.FollowsLoosely (S.first.operand ev) (S.second.operand ev')
  bind : ∀ ⦃w f f' args args'⦄, S.Known w f f' → List.Forall₂ (S.Loosely w) args args' →
    S.Sim w never S.Bound (S.first.bind f args) (S.second.bind f' args')
  home : ∀ ⦃w i j c c'⦄, Option.Rel (S.frames w) i j → S.scope w c c' →
    S.Sim w never S.frames (S.first.home i c) (S.second.home j c')
  primitive : ∀ w name f, Primitive.named? name = some f → f.Respects (S.labels w)
  rxForms : ∀ ⦃w forms forms'⦄, S.AllKnown w forms forms' →
    Agrees Eq (Rx.ofForms forms) (Rx.ofForms forms')
  rxForm : ∀ ⦃w form form'⦄, S.Known w form form' → ∀ noGroup,
    Agrees Eq (Rx.ofForm form noGroup) (Rx.ofForm form' noGroup)

/-- Also the operations on global variables keep what they have to, and no refusal is caught where
their values are found. -/
structure Lockstep (S : Simulation) : Prop extends S.Sound where
  refused_depth : ∀ f, S.refused f → f.handling ≠ .depth
  atRoot : ∀ ⦃w c c' i j⦄, S.scope w c c' → S.own w i j →
    S.scope w ⟨c.defs, i, [], [], [], c.loopLimit⟩ ⟨c'.defs, j, [], [], [], c'.loopLimit⟩
  global : ∀ ⦃w⦄ name, S.Sim w never (fun w => Option.Rel (S.SameGlobal w)) (Eval.global? name)
    (Eval.global? name)
  putGlobal : ∀ ⦃w g g'⦄, S.SameGlobal w g g' → ∀ name,
    S.Sim w never (fun _ _ _ => True) (Eval.putGlobal name g) (Eval.putGlobal name g')

namespace Sound

variable (hS : S.Sound) {w' : S.World} {v v' : Value} {vs vs' : List Value}
include hS

/-- Values that match still match in a larger world. -/
theorem known_mono (hw : w ≤ w') (h : S.Known w v v') : S.Known w' v v' :=
  Matches.mono (hS.frames_mono hw) (hS.serials_mono hw) h

theorem allKnown_mono (hw : w ≤ w') (h : S.AllKnown w vs vs') : S.AllKnown w' vs vs' :=
  h.imp fun _ _ => hS.known_mono hw

theorem loosely_mono (hw : w ≤ w') (h : S.Loosely w v v') : S.Loosely w' v v' :=
  h.imp (hS.known_mono hw) id

/-- Frames and scopes still stand for each other in a larger world. -/
theorem at_mono {env env' : FrameId} {scope scope' : Scope} (hw : w ≤ w')
    (h : S.At w env env' scope scope') : S.At w' env env' scope scope' :=
  ⟨hS.frames_mono hw _ _ h.env, hS.scope_mono hw h.scope⟩

theorem loosely_all_mono (hw : w ≤ w') (h : List.Forall₂ (S.Loosely w) vs vs') :
    List.Forall₂ (S.Loosely w') vs vs' :=
  h.imp fun _ _ => hS.loosely_mono hw

end Sound

end Simulation

end PatternLint
