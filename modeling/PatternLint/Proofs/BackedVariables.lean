import PatternLint.Proofs.CarefulRuns

/-! Global variables that are evaluated when they are first asked for, beside the same variables
evaluated where they are defined. A value that is found late is the one that was found at once, as
far as both are known. -/

namespace PatternLint

open Evaluation

/-- What careful evaluations are given: which operands are free to be unknown, the definitions,
and the limit of loops. -/
structure Setting where
  free : Value → Bool
  defs : Definitions
  limit : Nat

namespace Setting

/-- Evaluates with care where there are no variables around. -/
noncomputable def run (k : Setting) (expr : Value) : Eval Value :=
  evaluateBy (.careful k.free) expr none [] k.defs k.limit

/-- Its definitions and its limit. -/
def only (k : Setting) (defs : Definitions) (limit : Nat) : Prop :=
  defs = k.defs ∧ limit = k.limit

end Setting

/-- Equal whenever both are known. -/
def Value.Consistent (v v' : Value) : Prop :=
  v ≠ .unknown → v' ≠ .unknown → v = v'

namespace Table

/-- All variables have values without closures. -/
def Evaluated (E : Table Global) : Prop :=
  ∀ name g, E.get? name = some g → ∃ v, g = .known v ∧ v.IsPlain

/-- What is known in the first is known in the second. -/
def Within (E E' : Table Global) : Prop :=
  ∀ name v, E.get? name = some (.known v) → E'.get? name = some (.known v)

/-- A careful evaluation with variables from `E` gives the value `v`. -/
def Warrants (k : Setting) (E : Table Global) (e v : Value) : Prop :=
  ∃ g g' : Store, g.globals.Evaluated ∧ g.globals.Within E ∧ k.run e g = (.ok v, g')

/-- What a variable is whose value is the one in `E` as far as it is known, or will be. -/
def Backs (k : Setting) (E : Table Global) (name : String) : Global → Prop
  | .known v => ∀ x, E.get? name = some (.known x) → v.Consistent x
  | .pending e => e.IsPlain ∧
      ∀ x, E.get? name = some (.known x) → x ≠ .unknown → E.Warrants k e x
  | .busy _ => True

/-- Variables whose values are those in `E` as far as they are known, or will be. -/
def Backed (k : Setting) (E T : Table Global) : Prop :=
  ∀ name g, T.get? name = some g → E.Backs k name g

variable {k : Setting} {E E' T : Table Global} {name : String} {e v : Value} {g : Global}

theorem Evaluated.plain (h : E.Evaluated) (hv : E.get? name = some (.known v)) : v.IsPlain := by
  obtain ⟨_, hx, hplain⟩ := h name _ hv
  cases hx
  exact hplain

theorem Within.trans {E'' : Table Global} (h : E.Within E') (h' : E'.Within E'') : E.Within E'' :=
  fun name v hv => h' name v (h name v hv)

theorem Warrants.mono (h : E.Warrants k e v) (hE : E.Within E') : E'.Warrants k e v := by
  obtain ⟨g, g', hg, hwithin, hrun⟩ := h
  exact ⟨g, g', hg, hwithin.trans hE, hrun⟩

theorem Backed.put (h : Backed k E T) (hg : E.Backs k name g) : Backed k E (T.put name g) := by
  intro i g' hi
  rw [get?_put] at hi
  split at hi
  · rename_i hname
    cases hi
    rwa [hname]
  · exact h i g' hi

/-- Whatever comes of looking for a value, the variable is backed if the value is. -/
theorem Backs.found (h : E.Backs k name (.pending e)) {r : Except Fault Value}
    (hr : ∀ v x, r = .ok v → E.get? name = some (.known x) → v.Consistent x) :
    E.Backs k name (.found e r) := by
  cases r with
  | ok v => exact fun x hx => hr v x rfl hx
  | error f => exact h

end Table

/-- Frames below `n` are kept in what follows, and closures are not forgotten. -/
@[reducible] def Supervision.calmly (n : Nat) : Preorder Store where
  le s t := s.closures ≤ t.closures ∧ (n ≤ s.frames.size → Keeps n s.frames t.frames)
  le_refl _ := ⟨Nat.le_refl _, Keeps.refl⟩
  le_trans _ _ _ h h' := ⟨Nat.le_trans h.1 h'.1, fun hn => (h.2 hn).trans (h'.2 (h.2 hn).size)⟩

section Evaluated

variable {free : Value → Bool} {E : Table Global}

/-- Careful evaluations where all variables have values. -/
noncomputable abbrev Simulation.settled (free : Value → Bool) (E : Table Global) : Simulation :=
  Supervision.along (fun s => s.globals = E) (Supervision.calmly 0) (fun _ _ => True)
    (.careful free)
    (.carefulUpTo Store.Kept free) 0 (· = Policy.refusal)

theorem settled_accompanies : Supervision.Accompanies (fun s => s.globals = E)
    (Supervision.calmly 0) (fun _ _ => True) (.careful free) (.carefulUpTo Store.Kept free) 0
    (· = Policy.refusal) := by
  refine Supervision.careful_accompanies (fun s t hs hk _ hc ht => ⟨⟨hc, fun _ => hk⟩, ?_⟩) ?_
  · rw [ht, hs]
  · exact fun s t hs ht _ hcalm => ⟨hcalm.frames, hcalm.closures, ht.trans hs.symm⟩

theorem settled_follows (hE : E.Evaluated) (depth : Nat) : (Simulation.settled free E).Follows
    (evalBy (.careful free) depth) (evalBy (.carefulUpTo Store.Kept free) depth) := by
  have hpending : ∀ (s : Store) name e, s.globals.get? name = some (.pending e) →
      s.globals ≠ E := by
    rintro s name e he rfl
    obtain ⟨v, hv, -⟩ := hE name _ he
    cases hv
  refine Simulation.evalBy_follows_of (Supervision.along_sound settled_accompanies)
    (.inl ⟨rfl, rfl⟩)
    fun d d' hd hev => ?_
  refine Supervision.along_readsGlobals settled_accompanies hev (fun s name e he hs => ?_)
    fun s name e _ _ _ _ he hs => ?_
  · exact (hpending s name e he hs).elim
  · exact (hpending s name e he hs).elim

/-- Where all variables have values, a careful evaluation changes none of them, nor do operands that
are free to be unknown change anything. -/
theorem Setting.run_settled {k : Setting} (hE : E.Evaluated) {expr v : Value} {s t : Store}
    (hs : s.globals = E) (hrun : k.run expr s = (.ok v, t)) :
    evaluateBy (.carefulUpTo Store.Kept k.free) expr none [] k.defs k.limit s = (.ok v, t) ∧
      t.globals = E := by
  obtain ⟨hrun', -, ht⟩ := (Supervision.within_ends settled_accompanies
    (settled_follows hE maxDepth) trivial hs (Nat.zero_le _)).of_ok hrun
  exact ⟨hrun', ht⟩

end Evaluated

/-- Variables are backed afterwards, and nothing else has changed. -/
structure Store.CalmIn (k : Setting) (E : Table Global) (s t : Store) : Prop extends s.Calm t where
  backed : E.Backed k t.globals

namespace Setting

/-- The policy of runs that find variables late. -/
noncomputable abbrev late (k : Setting) (E : Table Global) : Policy :=
  .carefulUpTo (Store.CalmIn k E) k.free

/-- The policy of runs in which all variables are known. -/
noncomputable abbrev early (k : Setting) : Policy :=
  .carefulUpTo Store.Kept k.free

end Setting

/-- The first run has variables that are backed, and the second one has
those of `D` all the time. -/
def Course.backed (k : Setting) (E D : Table Global) : Course True where
  State := Unit
  order := PUnit.instLinearOrder.toPreorder
  tables _ _ T T' := E.Backed k T ∧ T' = D
  tables_mono _ _ _ _ _ _ := id

namespace Simulation

/-- Careful evaluations under two policies, between stores in which variables are backed. -/
noncomputable abbrev backed (k : Setting) (E : Table Global) (calm : Store → Store → Prop)
    (n : Nat) : Simulation :=
  Supervision.along (fun s => E.Backed k s.globals) (Supervision.calmly n) k.only
    (.carefulUpTo calm k.free) (k.late E) n (· = Policy.refusal)

/-- Variables are found late in the first run, and are known in the second. -/
noncomputable abbrev late (k : Setting) (E D : Table Global) : Simulation :=
  careful (Store.CalmIn k E) Store.Kept k.free (.backed k E D) k.only

variable {k : Setting} {E D : Table Global} {calm : Store → Store → Prop} {n depth depth' : Nat}

theorem backed_accompanies (hcalm : ∀ s t, calm s t → s.Calm t) :
    Supervision.Accompanies (fun s => E.Backed k s.globals) (Supervision.calmly n) k.only
      (.carefulUpTo calm k.free) (k.late E) n
      (· = Policy.refusal) := by
  refine Supervision.careful_accompanies (fun s t hs hk _ hc ht => ⟨⟨hc, fun _ => hk⟩, ?_⟩) ?_
  · rwa [ht]
  · exact fun s t _ ht _ h => ⟨hcalm s t h, ht⟩

theorem late_sound (hdefs : k.defs.IsPlain) : (late k E D).Sound := by
  refine paired_sound (careful_aligned (fun defs limit h => h.1 ▸ hdefs) ?_)
  intro w s s' t t' hs ht ht'
  refine ⟨hs.1.kept ⟨ht.frames, ht.closures, rfl⟩ ⟨ht'.frames, ht'.closures, rfl⟩,
    Fence.none_keeps _ _ _, ht.backed, ?_⟩
  rw [ht'.globals]
  exact hs.2.2.2

/-- A run that finds a value late comes to the one that was found at once. -/
theorem late_found
    (hev : (late k E D).Follows (evalBy (k.late E) depth)
      (evalBy k.early maxDepth))
    {s t g g' : Store} {scope : Scope} {name : String} {e v x : Value} (hs : E.Backed k s.globals)
    (he : e.IsPlain) (hx : x.IsPlain) (hscope : k.only scope.defs scope.loopLimit)
    (hg : g.globals = D)
    (hrun : findValue (k.late E)
      (evalBy (k.late E) depth) e s.frames.size scope
      (s.finding name e) = (.ok v, t))
    (hrun' : evaluateBy k.early e none [] k.defs k.limit g = (.ok x, g')) :
    v.Consistent x := by
  intro hv hxk
  let inner : Scope := ⟨scope.defs, s.frames.size, [], [], [], scope.loopLimit⟩
  let inner' : Scope := ⟨k.defs, g.frames.size, [], [], [], k.limit⟩
  let u : Store := { g with frames := g.frames.push ⟨.ofList [], none⟩ }
  have hbare : (s.withGlobal name (.busy e)).bare.Alike True .empty g.bare :=
    Store.bare_alike_empty _ _
  have hnowhere : Option.Rel Pairing.empty.labels.frames none none := .none
  obtain ⟨w, -, -, htwins, halike⟩ := hbare.newFrame hnowhere .nil
  have hstore : (late k E D).store (w, ()) (s.finding name e) u :=
    ⟨halike, Fence.none_keeps _ _ _, hs.put trivial, hg⟩
  have hat : (late k E D).At (w, ()) s.frames.size g.frames.size inner inner' :=
    ⟨.inl htwins, htwins, by simp only [inner, inner', hscope.1, hscope.2], hscope⟩
  have hx' : (late k E D).Known (w, ()) e e := he.matches _
  have hends := (orDefault_follows hev (fun _ hf => hf.elim) hx' hat _ _ hstore).ends fun _ => id
  have hfirst : (evalBy (k.late E) depth).orDefault .unknown e
      s.frames.size inner (s.finding name e) = (.ok v, t) := Policy.careful_found hrun
  have hsecond : (evalBy k.early maxDepth).orDefault .unknown e
      g.frames.size inner' u = (.ok x, g') := hrun'
  rw [hfirst, hsecond] at hends
  rcases hends with ⟨w', -, -, hr⟩ | hoff | hoff
  · cases hr with
    | ok h => exact hx.eq_of h
  · exact (hv hoff.2).elim
  · exact (hxk hoff.2).elim

theorem backed_readsGlobals (hE : E.Evaluated) (hcalm : ∀ s t, calm s t → s.Calm t)
    (hlate : ∀ D, D.Evaluated → D.Within E →
      (late k E D).Follows (evalBy (k.late E) depth) (evalBy k.early maxDepth))
    (hev : (backed k E calm n).Follows (evalBy (.carefulUpTo calm k.free) depth)
      (evalBy (k.late E) depth)) :
    (backed k E calm n).ReadsGlobals (evalBy (.carefulUpTo calm k.free) depth)
      (evalBy (k.late E) depth) := by
  refine Supervision.along_readsGlobals (backed_accompanies hcalm) hev
    (fun s name e _ hs => hs.put trivial) ?_
  intro s name e scope r r' t he hs hn hscope _ hrun hr hR ht
  have hback := hs name _ he
  refine ⟨⟨hR.1, fun hn => ((Keeps.refl hn).push _).trans (hR.2 ?_)⟩, ht.put (hback.found ?_)⟩
  · exact ((Keeps.refl hn).push _).size
  · rintro v x rfl hx hv hxk
    obtain ⟨g, g', hg, hwithin, hwarrant⟩ := hback.2 x hx hxk
    cases hr with
    | ok h =>
      subst h
      exact late_found (hlate _ hg hwithin) hs hback.1 (hE.plain hx) hscope rfl hrun
        (Setting.run_settled hg rfl hwarrant).1 hv hxk

/-- One run has to find the values that the other one knows. -/
theorem late_readsGlobals (hD : D.Evaluated) (hDE : D.Within E)
    (hreads : ∀ n, (backed k E (Store.CalmIn k E) n).ReadsGlobals (evalBy (k.late E) depth)
      (evalBy (k.late E) depth)) :
    (late k E D).ReadsGlobals (evalBy (k.late E) depth) (evalBy k.early depth') := by
  rintro w scope scope' hscope name s s' ⟨hbare, -, hs, hs'⟩
  change (late k E D).Outcome w isUnknown (late k E D).Known
    (globalValue (k.late E) (evalBy (k.late E) depth) name scope s)
    (globalValue k.early (evalBy k.early depth') name scope' s')
  have hfirst : Supervision.EndTogether (fun s => E.Backed k s.globals)
      (Supervision.calmly s.frames.size) (· = Policy.refusal) s
      (globalValue (k.late E) (evalBy (k.late E) depth) name scope s)
      (globalValue (k.late E) (evalBy (k.late E) depth) name scope s) := by
    let c : Scope := { scope with root := s.frames.size }
    have hc : (backed k E (Store.CalmIn k E) s.frames.size).scope s c c :=
      ⟨rfl, Nat.le_refl _, hscope.given⟩
    exact Supervision.ends_of_sim (hreads s.frames.size hc name) hs (Nat.le_refl _)
  rcases hrun : globalValue (k.late E) (evalBy (k.late E) depth) name scope s with ⟨f | v, t⟩
  · exact .first (.inr trivial)
  rw [hrun] at hfirst
  obtain ⟨-, hR, ht⟩ := hfirst.of_ok rfl
  by_cases hv : v = .unknown
  · exact .first ⟨trivial, hv⟩
  cases hg : s'.globals.get? name with
  | none =>
    rw [globalValue_none hg]
    exact .second ⟨trivial, rfl⟩
  | some g =>
    subst hs'
    obtain ⟨x, rfl, hx⟩ := hD name g hg
    rw [globalValue_known hg]
    by_cases hxk : x = .unknown
    · exact .second ⟨trivial, hxk⟩
    · obtain rfl : v = x := ht name _ (known_of_globalValue hrun hv) x (hDE name x hg) hv hxk
      have hkept : s.bare.Kept t.bare := ⟨hR.2 (Nat.le_refl _), hR.1, rfl⟩
      exact .agree w le_rfl ⟨hbare.kept hkept (.refl _), Fence.none_keeps _ _ _, ht, rfl⟩
        (.ok (hx.matches _))

end Simulation

/-- Runs of some depth keep variables backed, and those that find variables late stay in step
with runs that know them. -/
structure Setting.Sustains (k : Setting) (E : Table Global) (depth : Nat) : Prop where
  backed : ∀ calm n, (∀ s t, calm s t → s.Calm t) →
    (Simulation.backed k E calm n).Follows (evalBy (.carefulUpTo calm k.free) depth)
      (evalBy (k.late E) depth)
  late : ∀ D depth', D.Evaluated → D.Within E → depth ≤ depth' →
    (Simulation.late k E D).Follows (evalBy (k.late E) depth) (evalBy k.early depth')

variable {k : Setting} {E : Table Global}

/-- A variable is found at a smaller depth than the run that asks for it has. At this depth late
runs come to what was found at once, so that what they find is backed. -/
theorem Setting.sustains (hdefs : k.defs.IsPlain) (hE : E.Evaluated) {depth : Nat}
    (hd : depth ≤ maxDepth) : k.Sustains E depth := by
  induction depth with
  | zero =>
    refine ⟨fun calm n _ => ?_, fun D depth' _ _ _ => ?_⟩
    · intro w expr expr' env env' scope scope' _ _
      exact .fail rfl
    · intro w expr expr' env env' scope scope' _ _ s s' _
      exact .first (.inr trivial)
  | succ depth ih =>
    obtain ⟨hbacked, hlate⟩ := ih (Nat.le_of_succ_le hd)
    have hreads : ∀ calm n, (∀ s t, calm s t → s.Calm t) →
        (Simulation.backed k E calm n).ReadsGlobals (evalBy (.carefulUpTo calm k.free) depth)
          (evalBy (k.late E) depth) := fun calm n hcalm =>
      Simulation.backed_readsGlobals hE hcalm
        (fun D hD hDE => hlate D maxDepth hD hDE (Nat.le_of_succ_le hd)) (hbacked calm n hcalm)
    refine ⟨fun calm n hcalm => ?_, fun D depth' hD hDE hle => ?_⟩
    · exact Simulation.step_follows (Supervision.along_sound (Simulation.backed_accompanies hcalm))
        (hbacked calm n hcalm) (hreads calm n hcalm)
    · obtain ⟨depth', rfl⟩ := Nat.exists_eq_add_one_of_ne_zero (Nat.ne_zero_of_lt hle)
      exact Simulation.step_follows (Simulation.late_sound hdefs)
        (hlate D depth' hD hDE (Nat.le_of_succ_le_succ hle))
        (Simulation.late_readsGlobals hD hDE fun n => hreads _ n fun _ _ h => h.toCalm)

/-- Careful runs come to the same as far as both are known, when one finds variables late
and the other knows them. -/
theorem Setting.run_consistent (hdefs : k.defs.IsPlain) (hE : E.Evaluated) {expr v v' : Value}
    {s g t t' : Store} (hexpr : expr.IsPlain) (hs : E.Backed k s.globals) (hg : g.globals = E)
    (hrun : k.run expr s = (.ok v, t)) (hrun' : k.run expr g = (.ok v', t')) :
    E.Backed k t.globals ∧ t'.globals = E ∧ ∃ c, Loose True c v v' := by
  obtain ⟨hbacked, hlate⟩ := k.sustains hdefs hE (Nat.le_refl maxDepth)
  obtain ⟨hrun, -, ht⟩ := (Supervision.within_ends (Simulation.backed_accompanies fun _ _ => id)
    (hbacked _ 0 fun _ _ => id) ⟨rfl, rfl⟩ hs (Nat.zero_le _)).of_ok hrun
  obtain ⟨hrun', ht'⟩ := Setting.run_settled hE hg hrun'
  refine ⟨ht, ht', ?_⟩
  have hx : (Simulation.late k E E).Known (.empty, ()) expr expr := hexpr.matches _
  have hsim : (Simulation.late k E E).Sim (.empty, ()) Simulation.isUnknown
      (Simulation.late k E E).Known
        (within (evalBy (k.late E) maxDepth) .unknown expr none [] k.defs k.limit)
        (within (evalBy k.early maxDepth) .unknown expr none [] k.defs k.limit) :=
    Simulation.within_follows (Simulation.late_sound hdefs)
      (hlate E maxDepth hE (fun _ _ => id) (Nat.le_refl _)) (fun _ hf => hf.elim) hx .none
      fun w' i i' _ hi => ⟨hi, rfl, rfl, rfl⟩
  have hstore : (Simulation.late k E E).store (.empty, ()) s g :=
    ⟨s.bare_alike_empty g, Fence.none_keeps _ _ _, hs, hg⟩
  have hends := (hsim s g hstore).ends fun _ => id
  rw [show within _ _ _ _ _ _ _ s = _ from hrun,
    show within _ _ _ _ _ _ _ g = _ from hrun'] at hends
  rcases hends with ⟨w, -, -, hr⟩ | hoff | hoff
  · cases hr with
    | ok h => exact ⟨_, .inl h⟩
  · exact ⟨Pairing.empty.labels, .inr ⟨trivial, .inl hoff.2⟩⟩
  · exact ⟨Pairing.empty.labels, .inr ⟨trivial, .inr hoff.2⟩⟩

end PatternLint
