import Mathlib.Order.Basic
import PatternLint.Proofs.EvaluationSteps
import PatternLint.Proofs.SimulationEval

/-! Evaluations under a policy that adds checks to another one. As long as nothing is
refused, they do the same. -/

namespace PatternLint

/-- A fault that nothing absorbs. -/
def Policy.refusal : Fault := .noElement

/-- The policy of the language, but for how variables are assigned. -/
def Policy.assigning (assign : String → Value → FrameId → Scope → Eval Unit) : Policy :=
  { Policy.plain with assign := assign }

/-- The frames below `n` are as they were. -/
structure Keeps (n : Nat) (fs gs : Frames) : Prop where
  size : n ≤ gs.size
  same : ∀ id < n, gs[id]? = fs[id]?

namespace Keeps

variable {n : Nat} {fs gs hs : Frames} {id : FrameId}

theorem refl (h : n ≤ fs.size) : Keeps n fs fs :=
  ⟨h, fun _ _ => rfl⟩

theorem trans (h : Keeps n fs gs) (h' : Keeps n gs hs) : Keeps n fs hs :=
  ⟨h'.size, fun id hid => (h'.same id hid).trans (h.same id hid)⟩

theorem push (h : Keeps n fs gs) (frame : Frame) : Keeps n fs (gs.push frame) := by
  refine ⟨by simpa using Nat.le_succ_of_le h.size, fun id hid => ?_⟩
  rw [Array.getElem?_push, if_neg (by have := h.size; omega)]
  exact h.same id hid

theorem define (h : Keeps n fs gs) (hid : n ≤ id) (name : String) (v : Value) :
    Keeps n fs (gs.define id name v) := by
  refine ⟨by simpa using h.size, fun i hi => ?_⟩
  have hne : i ≠ id := Nat.ne_of_lt (Nat.lt_of_lt_of_le hi hid)
  rw [Frames.getElem?_define_of_ne hne]
  exact h.same i hi

end Keeps

/-- Under `p` variables are assigned as `assign` does it and without changing frames below `n`, and
all else is done as usual, unless it is refused. -/
structure Policy.Checks (p : Policy) (n : Nat)
    (assign : String → Value → FrameId → Scope → Eval Unit) : Prop where
  operand : ∀ ev expr env scope s, p.operand ev expr env scope s = ev expr env scope s ∨
    (p.operand ev expr env scope s).1 = .error refusal
  assign : ∀ name v env scope s, n ≤ scope.root →
    p.assign name v env scope s = assign name v env scope s ∧
        (n ≤ s.frames.size → Keeps n s.frames (p.assign name v env scope s).2.frames) ∨
      (p.assign name v env scope s).1 = .error refusal
  bind : ∀ formals args s, p.bind formals args s = (.ok (LambdaList.bind formals args), s) ∨
    (p.bind formals args s).1 = .error refusal
  home : ∀ frame scope s, p.home frame scope s = (.ok (frame.getD scope.root), s) ∨
    (p.home frame scope s).1 = .error refusal

namespace Supervision

/-- Frames below `n` are kept in what follows. -/
@[reducible] def keeping (n : Nat) : Preorder Store where
  le s t := n ≤ s.frames.size → Keeps n s.frames t.frames
  le_refl _ := Keeps.refl
  le_trans _ _ _ h h' hn := (h hn).trans (h' (h hn).size)

/-- Evaluations under two policies that go through the same stores. All of these have `I`, and they
follow each other in an order. What definitions there are, and the limit of loops, have `G`. -/
def along (I : Store → Prop) (R : Preorder Store) (G : Definitions → Nat → Prop) (p q : Policy)
    (n : Nat) (refused : Fault → Prop) : Simulation where
  World := Store
  order := R
  labels _ := ⟨Eq, Eq⟩
  own _ i j := i = j ∧ n ≤ i
  store w s s' := s = w ∧ s' = w ∧ I w ∧ n ≤ w.frames.size
  scope _ c c' := c = c' ∧ n ≤ c.root ∧ G c.defs c.loopLimit
  first := p
  second := q
  tolerant := False
  refused := refused

variable {I : Store → Prop} {R : Preorder Store} {G : Definitions → Nat → Prop} {p q : Policy}
  {n : Nat} {refused : Fault → Prop} {w : Store} {v v' : Value} {vs vs' : List Value}

theorem known_iff : (along I R G p q n refused).Known w v v' ↔ v = v' :=
  ⟨Matches.eq (fun _ _ h => h) fun _ _ h => h,
    fun h => h ▸ Matches.refl_of (fun _ => rfl) (fun _ => rfl) v⟩

theorem allKnown_iff : (along I R G p q n refused).AllKnown w vs vs' ↔ vs = vs' := by
  have : (along I R G p q n refused).Known w = Eq := by
    funext v v'
    exact propext known_iff
  change List.Forall₂ ((along I R G p q n refused).Known w) vs vs' ↔ _
  rw [this, List.forall₂_eq_eq_eq]

theorem loosely_iff : (along I R G p q n refused).Loosely w v v' ↔ v = v' :=
  ⟨fun h => known_iff.mp (h.resolve_right fun h => h.1), fun h => .inl (known_iff.mpr h)⟩

theorem loosely_all_iff :
    List.Forall₂ ((along I R G p q n refused).Loosely w) vs vs' ↔ vs = vs' := by
  have : (along I R G p q n refused).Loosely w = Eq := by
    funext v v'
    exact propext loosely_iff
  rw [this, List.forall₂_eq_eq_eq]

theorem bound_iff {bs bs' : List (String × Value)} :
    (along I R G p q n refused).Bound w bs bs' ↔ bs = bs' := by
  have : (fun b b' : String × Value => b.1 = b'.1 ∧ (along I R G p q n refused).Loosely w b.2 b'.2)
      = Eq := by
    funext b b'
    rw [loosely_iff, Prod.ext_iff]
  change List.Forall₂ (fun b b' : String × Value => b.1 = b'.1 ∧ _) bs bs' ↔ _
  rw [this, List.forall₂_eq_eq_eq]

theorem global_iff {g g' : Global} : (along I R G p q n refused).SameGlobal w g g' ↔ g = g' := by
  constructor
  · rintro (h | h | h)
    · rw [known_iff.mp h]
    · rw [known_iff.mp h]
    · rw [loosely_iff.mp h]
  · rintro rfl
    cases g with
    | pending e => exact .pending (known_iff.mpr rfl)
    | busy e => exact .busy (known_iff.mpr rfl)
    | known v => exact .known (loosely_iff.mpr rfl)

theorem rel_iff {α : Type} {R : α → α → Prop} (hR : ∀ a b, R a b ↔ a = b) {o o' : Option α} :
    Option.Rel R o o' ↔ o = o' := by
  constructor
  · rintro (h | _)
    · rw [(hR _ _).mp h]
    · rfl
  · rintro rfl
    cases o with
    | none => exact .none
    | some a => exact .some ((hR a a).mpr rfl)

theorem agrees_refl {α : Type} {A : α → α → Prop} (hA : ∀ a, A a a) (r : Except Fault α) :
    Agrees A r r := by
  cases r with
  | ok a => exact .ok (hA a)
  | error f => exact .error rfl

/-- From stores with `I` both do the same, and keep to the order and to `I`, unless the first
refuses. -/
def Accords (I : Store → Prop) (R : Preorder Store) (n : Nat) (refused : Fault → Prop) {α : Type}
    (m m' : Eval α) : Prop :=
  ∀ s, I s → n ≤ s.frames.size →
    m s = m' s ∧ R.le s (m s).2 ∧ I (m s).2 ∧ n ≤ (m s).2.frames.size ∨
      ∃ f, (m s).1 = .error f ∧ refused f

theorem off_refused {α : Type} {given : α → Prop} {r : Except Fault α}
    (h : ∃ f, r = .error f ∧ refused f) : (along I R G p q n refused).Off refused given r := by
  obtain ⟨f, rfl, hf⟩ := h
  exact .inl hf

theorem Accords.sim {α : Type} {given : α → Prop} {A : Store → α → α → Prop} {m m' : Eval α}
    (h : Accords I R n refused m m') (hA : ∀ w a, A w a a) :
    (along I R G p q n refused).Sim w given A m m' := by
  rintro _ _ ⟨rfl, rfl, hI, hn⟩
  rcases h _ hI hn with ⟨heq, hR, hI, hn⟩ | hr
  · refine .agree (m _).2 hR ⟨rfl, congrArg Prod.snd heq.symm, hI, hn⟩ ?_
    rw [heq]
    exact agrees_refl (hA _) _
  · exact .first (off_refused hr)

/-- What policies have to keep, so that evaluations under them go through the same stores. -/
structure Accompanies (I : Store → Prop) (R : Preorder Store) (G : Definitions → Nat → Prop)
    (p q : Policy) (n : Nat) (refused : Fault → Prop) : Prop where
  passive : ∀ s t, I s → Keeps n s.frames t.frames → s.frames.size ≤ t.frames.size →
    s.closures ≤ t.closures → t.globals = s.globals → R.le s t ∧ I t
  operand : ∀ ev ev', (along I R G p q n refused).Follows ev ev' →
    (along I R G p q n refused).FollowsLoosely (p.operand ev) (q.operand ev')
  assign : ∀ name v env scope, n ≤ scope.root →
    Accords I R n refused (p.assign name v env scope) (q.assign name v env scope)
  bind : ∀ formals args, Accords I R n refused (p.bind formals args) (q.bind formals args)
  home : ∀ frame scope, Accords I R n refused (p.home frame scope) (q.home frame scope)
  refused_depth : ∀ f, refused f → f.handling ≠ .depth

section Accompanies

variable (h : Accompanies I R G p q n refused)
include h

theorem accords_refl {α : Type} {m : Eval α}
    (hm : ∀ s, n ≤ s.frames.size → Keeps n s.frames (m s).2.frames ∧
      s.frames.size ≤ (m s).2.frames.size ∧ s.closures ≤ (m s).2.closures ∧
      (m s).2.globals = s.globals) : Accords I R n refused m m := by
  intro s hI hn
  obtain ⟨hk, hsize, hc, hg⟩ := hm s hn
  obtain ⟨hR, hI⟩ := h.passive s _ hI hk hsize hc hg
  exact .inl ⟨rfl, hR, hI, hk.size⟩

theorem push_frame {s : Store} (frame : Frame) (hI : I s) (hn : n ≤ s.frames.size) :
    R.le s { s with frames := s.frames.push frame } ∧ I { s with frames := s.frames.push frame } ∧
      n ≤ (s.frames.push frame).size := by
  have hk := (Keeps.refl hn).push frame
  have hsize : s.frames.size ≤ (s.frames.push frame).size := by
    rw [Array.size_push]
    exact Nat.le_succ _
  obtain ⟨hR, hI⟩ := h.passive s { s with frames := s.frames.push frame } hI hk hsize
    (Nat.le_refl _) rfl
  exact ⟨hR, hI, hk.size⟩

theorem along_sound : (along I R G p q n refused).Sound where
  frames_mono _ _ _ _ _ h := h
  serials_mono _ _ _ _ _ h := h
  own_mono _ _ _ _ _ h := h
  own_frames _ _ _ h := h.1
  scope_mono _ _ _ _ _ h := h
  scope_eq _ _ _ h := by rw [h.1]; exact ⟨rfl, rfl, rfl⟩
  scope_defs _ _ _ _ _ _ _ := ⟨known_iff.mpr rfl, allKnown_iff.mpr rfl⟩
  binding _ _ _ h _ := ⟨by rw [h.1], h.2⟩
  expandingToo _ _ _ h _ := ⟨by rw [h.1], h.2⟩
  entering _ _ _ _ _ h hi _ _ := ⟨by rw [h.1, hi.1], hi.2, h.2.2⟩
  newFrame s i j b b' hi hb := by
    rw [(rel_iff fun _ _ => Iff.rfl).mp hi, bound_iff.mp hb]
    rintro _ _ ⟨rfl, rfl, hI, hn⟩
    obtain ⟨hR, hI, hn'⟩ := push_frame h ⟨.ofList b', j⟩ hI hn
    exact .agree _ hR ⟨rfl, rfl, hI, hn'⟩ (.ok ⟨rfl, hn⟩)
  define _ i j v v' hi hv name := by
    rw [← hi.1, loosely_iff.mp hv]
    refine (accords_refl h fun s hn => ⟨(Keeps.refl hn).define hi.2 name v', ?_, Nat.le_refl _,
      rfl⟩).sim fun _ _ => trivial
    exact Nat.le_of_eq (Frames.size_define _ _ _ _).symm
  lookup _ i j hi name := by
    rw [show i = j from hi]
    exact (accords_refl h fun s hn => ⟨Keeps.refl hn, Nat.le_refl _, Nat.le_refl _, rfl⟩).sim
      fun _ _ => (rel_iff fun _ _ => loosely_iff).mpr rfl
  assign _ i j c c' v v' hat hv name := by
    rw [show i = j from hat.env, ← hat.scope.1, loosely_iff.mp hv]
    exact (h.assign name v' j c hat.scope.2.1).sim fun _ _ => trivial
  closure _ i j f f' b b' hi hf hb := by
    rw [show i = j from hi, known_iff.mp hf, allKnown_iff.mp hb]
    exact (accords_refl h fun s hn => ⟨Keeps.refl hn, Nat.le_refl _, Nat.le_succ _, rfl⟩).sim
      fun _ _ => known_iff.mpr rfl
  operand := h.operand
  bind _ f f' args args' hf ha := by
    rw [known_iff.mp hf, loosely_all_iff.mp ha]
    exact (h.bind f' args').sim fun _ _ => bound_iff.mpr rfl
  home _ i j c c' hi hs := by
    rw [(rel_iff fun _ _ => Iff.rfl).mp hi, ← hs.1]
    exact (h.home j c).sim fun _ _ => rfl
  primitive _ name f _ args args' ha := by
    rw [allKnown_iff.mp ha]
    exact agrees_refl (fun _ => known_iff.mpr rfl) _
  rxForms _ forms forms' hf := by
    rw [allKnown_iff.mp hf]
    exact agrees_refl (fun _ => rfl) _
  rxForm _ form form' hf noGroup := by
    rw [known_iff.mp hf]
    exact agrees_refl (fun _ => rfl) _

/-- Global variables are read together if finding the value of one keeps to the order and to `I`. -/
theorem along_readsGlobals {ev ev' : Evaluator} (hev : (along I R G p q n refused).Follows ev ev')
    (hbusy : ∀ s name e, s.globals.get? name = some (.pending e) → I s → I (s.finding name e))
    (hfound : ∀ s name e scope r r' t, s.globals.get? name = some (.pending e) → I s →
      n ≤ s.frames.size → G scope.defs scope.loopLimit →
      Evaluation.findValue p ev e s.frames.size scope (s.finding name e) = (r, t) →
      Evaluation.findValue q ev' e s.frames.size scope (s.finding name e) = (r', t) →
      Agrees Eq r r' → R.le (s.finding name e) t → I t →
      R.le s (t.withGlobal name (.found e r)) ∧ I (t.withGlobal name (.found e r))) :
    (along I R G p q n refused).ReadsGlobals ev ev' := by
  rintro _ scope _ ⟨rfl, hroot, hG⟩ name _ s ⟨rfl, rfl, hI, hn⟩
  have same : ∀ {v : Value}, Evaluation.globalValue p ev name scope s = (.ok v, s) →
      Evaluation.globalValue q ev' name scope s = (.ok v, s) →
      (along I R G p q n refused).Outcome s Simulation.isUnknown (along I R G p q n refused).Known
        (Evaluation.globalValue p ev name scope s) (Evaluation.globalValue q ev' name scope s) := by
    intro v h h'
    rw [h, h']
    exact .agree s (R.le_refl s) ⟨rfl, rfl, hI, hn⟩ (.ok (known_iff.mpr rfl))
  change (along I R G p q n refused).Outcome s Simulation.isUnknown
    (along I R G p q n refused).Known
    (Evaluation.globalValue p ev name scope s) (Evaluation.globalValue q ev' name scope s)
  rcases hg : s.globals.get? name with _ | e | e | v
  · exact same (globalValue_none hg) (globalValue_none hg)
  · rw [globalValue_pending hg, globalValue_pending hg]
    rcases hr : Evaluation.findValue p ev e s.frames.size scope (s.finding name e) with ⟨r, t⟩
    rcases hr' : Evaluation.findValue q ev' e s.frames.size scope (s.finding name e) with ⟨r', t'⟩
    have hn' : n ≤ (s.finding name e).frames.size := by
      exact ((Keeps.refl hn).push _).size
    have hat : (along I R G p q n refused).At (s.finding name e) s.frames.size s.frames.size
        ⟨scope.defs, s.frames.size, [], [], [], scope.loopLimit⟩
        ⟨scope.defs, s.frames.size, [], [], [], scope.loopLimit⟩ := ⟨rfl, rfl, hn, hG⟩
    have hsim := Simulation.findValue_follows (along_sound h) hev h.refused_depth
      (known_iff.mpr (rfl : e = e)) hat _ _ ⟨rfl, rfl, hbusy s name e hg hI, hn'⟩
    change (along I R G p q n refused).Outcome _ _ _ (Evaluation.findValue p ev e _ scope _)
      (Evaluation.findValue q ev' e _ scope _) at hsim
    rw [hr, hr'] at hsim
    obtain ⟨w, hR, ⟨rfl, rfl, hIt, hnt⟩, hagrees⟩ | hoff | hoff := hsim.ends fun _ => id
    · obtain ⟨hR, hIt⟩ := hfound s name e scope r r' _ hg hI hn hG hr hr'
        (hagrees.mono fun _ _ => loosely_iff.mp) hR hIt
      have hsame : Global.found e r' = Global.found e r := by
        cases hagrees with
        | ok hv => rw [loosely_iff.mp hv]
        | error _ => rfl
      dsimp only
      rw [hsame]
      refine .agree _ hR ⟨rfl, rfl, hIt, hnt⟩ (hagrees.mono fun v v' hv => ?_)
      exact known_iff.mpr (loosely_iff.mp hv)
    · exact .first (hoff.mono fun _ hf => hf.elim)
    · exact (Simulation.Off.not_never id hoff).elim
  · exact same (globalValue_busy hg) (globalValue_busy hg)
  · exact same (globalValue_known hg) (globalValue_known hg)

end Accompanies

/-- Evaluations that are the same in everything, and keep the frames below `n`. -/
abbrev identical (p : Policy) (assign : String → Value → FrameId → Scope → Eval Unit) (n : Nat) :
    Simulation :=
  along (fun _ => True) (keeping n) (fun _ _ => True) p (.assigning assign) n (· = Policy.refusal)

variable {assign : String → Value → FrameId → Scope → Eval Unit}

theorem identical_accompanies (h : p.Checks n assign) :
    Accompanies (fun _ => True) (keeping n) (fun _ _ => True) p (.assigning assign) n
      (· = Policy.refusal) where
  passive s t _ hk _ _ _ := ⟨fun _ => hk, trivial⟩
  operand ev ev' hev w expr expr' env env' scope scope' hx hat s s' hs := by
    rcases h.operand ev expr env scope s with heq | hr
    · rw [heq]
      exact ((hev hx hat s s' hs).strict id Simulation.never).mono (fun _ => id) fun _ _ _ => .inl
    · exact .first (off_refused ⟨_, hr, rfl⟩)
  assign name v env scope hroot s _ hn :=
    (h.assign name v env scope s hroot).imp
      (fun h => ⟨h.1, fun _ => h.2 hn, trivial, (h.2 hn).size⟩) fun h => ⟨_, h, rfl⟩
  bind formals args s _ hn := by
    refine (h.bind formals args s).imp (fun h => ?_) fun h => ⟨_, h, rfl⟩
    rw [h]
    exact ⟨rfl, Keeps.refl, trivial, hn⟩
  home frame scope s _ hn := by
    refine (h.home frame scope s).imp (fun h => ?_) fun h => ⟨_, h, rfl⟩
    rw [h]
    exact ⟨rfl, Keeps.refl, trivial, hn⟩
  refused_depth f hf := by rw [hf]; exact nofun

theorem identical_sound (h : p.Checks n assign) : (identical p assign n).Lockstep where
  toSound := along_sound (identical_accompanies h)
  refused_depth := (identical_accompanies h).refused_depth
  atRoot _ _ _ _ _ h hi := ⟨by rw [h.1, hi.1], hi.2, h.2.2⟩
  global _ name := by
    refine Accords.sim (fun s _ hn => .inl ⟨rfl, Keeps.refl, trivial, hn⟩) fun _ _ => ?_
    exact (rel_iff fun _ _ => global_iff).mpr rfl
  putGlobal _ g g' hg name := by
    rw [global_iff.mp hg]
    exact Accords.sim (fun s _ hn => .inl ⟨rfl, Keeps.refl, trivial, hn⟩) fun _ _ => trivial

variable {s t : Store} {ev ev' : Evaluator} {default expr : Value} {env : Option FrameId}
  {mutables : List String} {defs : Definitions} {loopLimit depth : Nat}

/-- How two runs end that go through the same stores. -/
def EndTogether (I : Store → Prop) (R : Preorder Store) (refused : Fault → Prop) (s : Store)
    (r r' : Except Fault Value × Store) : Prop :=
  r.2 = r'.2 ∧ Agrees Eq r.1 r'.1 ∧ R.le s r.2 ∧ I r.2 ∨ ∃ f, r.1 = .error f ∧ refused f

/-- A run that is not refused is one of the other evaluator. -/
theorem EndTogether.of_ok {r r' : Except Fault Value × Store} (h : EndTogether I R refused s r r')
    (hr : r = (.ok v, t)) : r' = (.ok v, t) ∧ R.le s t ∧ I t := by
  subst hr
  obtain ⟨r', t'⟩ := r'
  rcases h with ⟨ht, hr, hR, hI⟩ | ⟨f, hf, -⟩
  · obtain rfl : t = t' := ht
    cases hr with
    | ok h => exact ⟨by rw [h], hR, hI⟩
  · cases hf

/-- A run of the other evaluator is the run, if that is not refused. -/
theorem EndTogether.of_other {f : Fault} {r r' : Except Fault Value × Store}
    (h : EndTogether I R (· = f) s r r') (hf : r.1 ≠ .error f) (hr' : r' = (.ok v, t)) :
    r = (.ok v, t) := by
  subst hr'
  obtain ⟨r, u⟩ := r
  rcases h with ⟨rfl, hr, -, -⟩ | ⟨_, h, rfl⟩
  · cases hr with
    | ok h => rw [h]
  · exact (hf h).elim

theorem ends_of_sim {given : Value → Prop} {m m' : Eval Value}
    (h : (along I R G p q n refused).Sim s given (along I R G p q n refused).Known m m') (hI : I s)
    (hn : n ≤ s.frames.size) : EndTogether I R refused s (m s) (m' s) := by
  obtain ⟨w, hR, ⟨hs, hs', hI, -⟩, hr⟩ | hoff | hoff := (h s s ⟨rfl, rfl, hI, hn⟩).ends fun _ => id
  · have hsame : Agrees Eq (m s).1 (m' s).1 := hr.mono fun _ _ => known_iff.mp
    subst hs
    exact .inl ⟨hs'.symm, hsame, hR, hI⟩
  · exact .inr (Simulation.Off.eq_error id hoff)
  · exact (Simulation.Off.not_never id hoff).elim

theorem along_ends {frame : FrameId} {scope : Scope}
    (hev : (along I R G p q n refused).Follows ev ev')
    (hroot : n ≤ scope.root) (hG : G scope.defs scope.loopLimit) (hI : I s)
    (hn : n ≤ s.frames.size) :
    EndTogether I R refused s (ev expr frame scope s) (ev' expr frame scope s) :=
  ends_of_sim (hev (known_iff.mpr rfl) ⟨rfl, rfl, hroot, hG⟩) hI hn

/-- So do runs in a fresh frame. -/
theorem within_ends (h : Accompanies I R G p q n refused)
    (hev : (along I R G p q n refused).Follows ev ev') (hG : G defs loopLimit) (hI : I s)
    (hn : n ≤ s.frames.size) :
    EndTogether I R refused s (Evaluation.within ev default expr env mutables defs loopLimit s)
      (Evaluation.within ev' default expr env mutables defs loopLimit s) := by
  let u : Store := { s with frames := s.frames.push ⟨.ofList [], env⟩ }
  let scope : Scope := ⟨defs, s.frames.size, [], mutables, [], loopLimit⟩
  obtain ⟨hR, hIu, hnu⟩ := push_frame h ⟨.ofList [], env⟩ hI hn
  change EndTogether I R refused s (Eval.orDefault default (ev expr s.frames.size scope) u)
    (Eval.orDefault default (ev' expr s.frames.size scope) u)
  have hends : EndTogether I R refused u (ev expr s.frames.size scope u)
      (ev' expr s.frames.size scope u) := along_ends hev hn hG hIu hnu
  rcases hends with ⟨ht, hr, hR', hI'⟩ | ⟨f, hf, hrefused⟩
  · refine .inl ⟨?_, hr.orDefault rfl, ?_⟩
    · rw [Eval.orDefault_snd, Eval.orDefault_snd, ht]
    · rw [Eval.orDefault_snd]
      exact ⟨R.le_trans _ _ _ hR hR', hI'⟩
  · exact .inr ⟨f, Eval.orDefault_refused default hf (h.refused_depth f hrefused), hrefused⟩

/-- The ways to evaluate under a policy. -/
abbrev Runner : Type :=
  Policy → Value → Option FrameId → List String → Definitions → Nat → Eval Value

/-- What is evaluated under checks without being refused is evaluated the same way without them. -/
theorem run_of_checked {run : Runner} (hrun : run = evaluateBy ∨ run = evaluateListBy)
    (h : p.Checks n assign) (hn : n ≤ s.frames.size)
    (hp : run p expr env mutables defs loopLimit s = (.ok v, t))
    (hdeep : p.tooDeep.handling = .depth := by rfl) :
    run (.assigning assign) expr env mutables defs loopLimit s = (.ok v, t) ∧
      Keeps n s.frames t.frames := by
  have hS := identical_sound h
  have haccompanies := identical_accompanies h
  have not_signal : ∀ f, f = Policy.refusal → f.handling ≠ .signal := by
    rintro _ rfl
    exact nofun
  have heval : ∀ depth, (identical p assign n).Follows (evalBy p depth)
      (evalBy (.assigning assign) depth) :=
    fun depth => Simulation.evalBy_follows hS (.inl ⟨rfl, hdeep⟩)
  rcases hrun with rfl | rfl
  · obtain ⟨hrun, hk, -⟩ := (within_ends haccompanies (heval maxDepth) trivial trivial hn).of_ok hp
    exact ⟨hrun, hk hn⟩
  · obtain ⟨hrun, hk, -⟩ :=
      (within_ends haccompanies (Simulation.evalStructureWithin_follows hS.toSound
      id not_signal (.inl hdeep) heval maxDepth 0) trivial trivial hn).of_ok hp
    exact ⟨hrun, hk hn⟩

end Supervision

end PatternLint
