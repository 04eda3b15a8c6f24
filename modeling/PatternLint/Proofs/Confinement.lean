import PatternLint.Proofs.CallerFrames
import PatternLint.Proofs.KnownResults

/-! Expressions whose evaluation keeps to frames that it makes itself. They have the same value in
an empty frame inside the variables around them as in place. -/

namespace PatternLint

section Unique

variable {c d : Labels}

theorem SameBindings.unique (hcd : c.Coherent d) {bs bs' bs'' : List (String × Value)}
    (h : SameBindings False c bs bs') (h' : SameBindings False d bs bs'') : bs' = bs'' := by
  induction h generalizing bs'' with
  | nil => cases h'; rfl
  | cons hb _ ih =>
    cases h' with
    | cons hb' hbs' =>
      rw [ih hbs', Prod.ext (hb.1.symm.trans hb'.1) (hb.2.matches.unique hcd _ hb'.2.matches)]

theorem Frame.Alike.unique (hcd : c.Coherent d) {i i' i'' : FrameId} {f f' f'' : Frame}
    (h : f.Alike False c i i' f') (h' : f.Alike False d i i'' f'') : f' = f'' := by
  have hvars := h.vars.unique hcd h'.vars
  have houter := rel_unique hcd.frames h.outer h'.outer
  obtain ⟨⟨entries'⟩, outer'⟩ := f'
  obtain ⟨⟨entries''⟩, outer''⟩ := f''
  subst hvars houter
  rfl

theorem Global.Same.unique (hcd : c.Coherent d) {g g' g'' : Global} (h : g.Same False c g')
    (h' : g.Same False d g'') : g' = g'' := by
  cases h with
  | pending he => cases h' with | pending he' => rw [he.unique hcd _ he']
  | busy he => cases h' with | busy he' => rw [he.unique hcd _ he']
  | known hv => cases h' with | known hv' => rw [hv.matches.unique hcd _ hv'.matches]

end Unique

namespace Store.Alike

variable {tolerant : Prop} {w w' : Pairing} {s s' t t' : Store} {i : FrameId} {name : String}
  {v : Value}

/-- A frame that stands for no other one may be changed on one side. -/
theorem defineFree (h : s.Alike tolerant w s') (hi : ∀ i', ¬w.labels.frames i i') (name : String)
    (v : Value) : Store.Alike tolerant w { s with frames := s.frames.define i name v } s' where
  twins := by
    intro j j' hj
    have hne : j ≠ i := fun he => hi j' (he ▸ .inl hj)
    rw [Frames.getElem?_define_of_ne hne]
    exact h.twins hj
  shadows := by
    intro j j' hj
    have hne : j ≠ i := fun he => hi j' (he ▸ .inr hj)
    rw [Frames.getElem?_define_of_ne hne]
    exact h.shadows hj
  serials := h.serials
  globals := h.globals

/-- A frame that stands for no other one may get a new twin. -/
theorem newTwin {o o' : FrameId} {vars : Table Value} {bs' : List (String × Value)}
    (h : s.Alike tolerant w s') (hi : ∀ i', ¬w.labels.frames i i')
    (hf : s.frames[i]? = some ⟨vars, some o⟩) (ho : w.labels.frames o o') (hlt : o < i)
    (hb : SameBindings tolerant w.labels vars.entries (Table.ofList bs').entries) :
    ∃ w', w ≤ w' ∧ w'.twins i s'.frames.size ∧
      s.Alike tolerant w' { s' with frames := s'.frames.push ⟨.ofList bs', some o'⟩ } := by
  have hne : ∀ j j', w.labels.frames j j' → j ≠ i ∧ j' ≠ s'.frames.size := fun j j' hj =>
    ⟨fun he => hi j' (he ▸ hj), Nat.ne_of_lt (h.frames_lt hj).2⟩
  have hw := w.le_withTwins hne
  refine ⟨_, hw, .inr ⟨rfl, rfl⟩, h.grow hw ?_ (fun _ _ => .inl) (fun _ _ hk => h.serials hk)
    (.refl s) (kept_push s' _)⟩
  rintro j j' (hj | ⟨rfl, rfl⟩)
  · exact .inl hj
  · refine .inr ⟨_, _, hf, Array.getElem?_push_size, Frame.Alike.mono hw ⟨hb, .some ho, ?_, ?_⟩⟩
    · rintro _ ⟨⟩
      exact hlt
    · rintro _ ⟨⟩
      exact (h.frames_lt ho).2

section Narrow

variable (h : s.Alike False w s') (hw : w ≤ w') (h' : t.Alike False w' t')
  (hframes : ∀ i i', w.labels.frames i i' → t.frames[i]? = s.frames[i]?)
include h hw h' hframes

theorem coherent : w.labels.Coherent w'.labels where
  serials := fun _ _ _ hj hk => (w'.serials_iff (hw.serials hj) hk).1 rfl
  frames := by
    intro i j k hj hk
    induction hn : i using Nat.strongRecOn generalizing i with
    | _ n ih =>
      subst hn
      rcases hj with hj | hj <;> rcases hk with hk | hk
      · exact (w'.twins_iff (hw.twins hj) hk).1 rfl
      · exact (w'.apart hk (hw.twins hj)).elim
      · exact (w'.apart (hw.shadows hj) hk).elim
      · obtain ⟨o, hf, ho, hoj⟩ := h.shadows hj
        obtain ⟨o', hf', -, hok⟩ := h'.shadows hk
        rw [hframes i j (.inr hj), hf] at hf'
        cases hf'
        exact ih o ho hoj hok rfl

/-- What is alike in a larger pairing is so in a smaller one, where the first store has kept its
frames and has no new closures among its globals. -/
theorem narrow (hglobals : ∀ name, t.globals.get? name = s.globals.get? name ∨
      ∃ v, t.globals.get? name = some (.known v) ∧ v.IsPlain) :
    t.Alike False w t' := by
  have hcd := coherent h hw h' hframes
  refine ⟨?_, ?_, fun k k' hk => h'.serials (hw.serials hk), ?_⟩
  · intro i i' hi
    obtain ⟨f, f', hf, -, halike⟩ := h.twins hi
    obtain ⟨g, g', hg, hg', halike'⟩ := h'.twins (hw.twins hi)
    rw [hframes i i' (.inl hi), hf] at hg
    cases hg
    rw [← halike.unique hcd halike'] at hg'
    exact ⟨f, f', by rw [hframes i i' (.inl hi), hf], hg', halike⟩
  · intro i i' hi
    rw [hframes i i' (.inr hi)]
    exact h.shadows hi
  · intro name
    have hnew := h'.globals name
    rcases hglobals name with hsame | ⟨v, hv, hplain⟩
    · have hold := h.globals name
      rw [hsame] at hnew ⊢
      rw [← rel_unique (fun _ _ _ hg hg' => hg.unique hcd hg') hold hnew]
      exact hold
    · rw [hv] at hnew ⊢
      generalize t'.globals.get? name = o at hnew
      cases hnew with
      | some hg =>
        cases hg with
        | known hv' =>
          rw [← hplain.eq hv'.matches]
          exact .some (.known (.inl (hplain.matches _)))

end Narrow

end Store.Alike

namespace Policy

variable {root : FrameId}

/-- Refuses assignments to frames up to `root`, calls that run right inside of it, and
evaluation that is too deep. -/
def confined (root : FrameId) : Policy where
  tooDeep := refusal
  operand ev := ev
  assign name v env scope s :=
    if s.frames.assigned name env scope ≤ root then (.error refusal, s)
    else Evaluation.assign name v env scope s
  bind formals args := return LambdaList.bind formals args
  home frame scope s :=
    if frame = none ∧ scope.root = root then (.error refusal, s)
    else (.ok (frame.getD scope.root), s)

theorem confined_checks (root : FrameId) : (confined root).Checks root Evaluation.assign where
  operand _ _ _ _ _ := .inl rfl
  assign name v env scope s _ := by
    simp only [confined]
    split
    · exact .inr rfl
    · rename_i h
      exact .inl ⟨rfl, fun hn => assign_keeps hn (Nat.le_of_lt (Nat.not_le.1 h))⟩
  bind _ _ _ := .inl rfl
  home frame scope s := by
    simp only [confined]
    split
    · exact .inr rfl
    · exact .inl rfl

end Policy

/-- Pairings in which the spare frames of the first store stand for nothing. -/
def Pairing.Without (spare : FrameId → Prop) : Type :=
  { w : Pairing // ∀ i i', spare i → ¬w.labels.frames i i' }

instance {spare : FrameId → Prop} : Preorder (Pairing.Without spare) :=
  Subtype.preorder _

/-- Stores that are alike, where the spare frames are there already. -/
def Store.Beside (spare : FrameId → Prop) (w : Pairing.Without spare) (s s' : Store) : Prop :=
  s.Alike False w.1 s' ∧ ∀ i, spare i → i < s.frames.size

theorem Pairing.Adds.without {spare : FrameId → Prop} {w w' : Pairing} {n : FrameId}
    (h : w.Adds w' n) (hn : ∀ i, spare i → i < n) (hw : ∀ i i', spare i → ¬w.labels.frames i i') :
    ∀ i i', spare i → ¬w'.labels.frames i i' := by
  intro i i' hi hfr
  rcases h i i' hfr with hfr | hle
  · exact hw i i' hi hfr
  · exact Nat.not_le_of_lt (hn i hi) hle

namespace Simulation

/-- A scope that stands for one in place: right inside of `root` fewer variables may be assigned,
and within functions the same ones. -/
structure InPlace (root : FrameId) (w : Pairing) (c c' : Scope) : Prop where
  same : c.defs = c'.defs ∧ c.expanding = c'.expanding ∧ c.loopLimit = c'.loopLimit
  defs : ∀ name d, c.defs.functions.get? name = some d ∨ c.defs.macros.get? name = some d →
    Matches w.labels d.formals d.formals ∧ MatchesAll w.labels d.body d.body
  vars : (c.root = root ∧ ∀ name ∈ c.mutables, name ∈ c'.mutables) ∨
    (w.twins c.root c'.root ∧ c.mutables = c'.mutables ∧ c.outerMutables = c'.outerMutables)

/-- Two runs that both have a result, where no value is tolerated to be unknown on one side only. -/
theorem Sim.of_ok {α : Type} {S : Simulation} {w : S.World} {given : α → Prop}
    {A : S.World → α → α → Prop} {m m' : Eval α} {a a' : α} {s s' t t' : Store}
    (hstrict : ¬S.tolerant) (hstray : ∀ w, ¬S.stray w)
    (h : S.Sim w given A m m') (hs : S.store w s s') (hm : m s = (.ok a, t))
    (hm' : m' s' = (.ok a', t')) : ∃ w', w ≤ w' ∧ S.store w' t t' ∧ A w' a a' := by
  have hrun := h s s' hs
  rw [hm, hm'] at hrun
  rcases hrun.ends hstray with ⟨w', hw, ht, hr⟩ | hoff | hoff
  · cases hr with
    | ok ha => exact ⟨w', hw, ht, ha⟩
  · exact (hstrict hoff.1).elim
  · exact (hstrict hoff.1).elim

/-- A confined evaluation, and one in place. -/
def confined (root : FrameId) (spare : FrameId → Prop) : Simulation where
  World := Pairing.Without spare
  labels w := w.1.labels
  own w := w.1.twins
  store := Store.Beside spare
  scope w := InPlace root w.1
  first := .confined root
  second := .plain
  tolerant := False
  refused f := f = Policy.refusal

variable {root : FrameId} {spare : FrameId → Prop} {w : Pairing.Without spare} {i i' : FrameId}
  {c c' : Scope} {v v' : Value}

theorem confined_define (hi : w.1.twins i i') (hv : Loose False w.1.labels v v') (name : String) :
    (confined root spare).Sim w never (fun _ _ _ => True) (Eval.define i name v)
      (Eval.define i' name v') := by
  intro s s' hs
  refine .agree w le_rfl ⟨hs.1.define hi hv name, fun j hj => ?_⟩ (.ok trivial)
  rw [Eval.define, Frames.size_define]
  exact hs.2 j hj

theorem confined_set (hi : w.1.labels.frames i i') (hv : Loose False w.1.labels v v')
    (name : String) :
    (confined root spare).Sim w never (fun _ => Eq) (Eval.set i name v) (Eval.set i' name v') := by
  intro s s' hs
  have hfind := hs.1.find hi name
  simp only [Eval.set]
  generalize s.frames.find? name i = o, s'.frames.find? name i' = o' at hfind
  cases hfind with
  | none => exact .agree w le_rfl hs (.ok rfl)
  | some ho => exact .agree w le_rfl ⟨hs.1.define ho hv name, by simpa using hs.2⟩ (.ok rfl)

/-- An assignment in a scope that stands for the other one in all. -/
theorem confined_assignAlike (hi : w.1.labels.frames i i') (hroot : w.1.twins c.root c'.root)
    (hm : c.mutables = c'.mutables) (ho : c.outerMutables = c'.outerMutables)
    (hv : Loose False w.1.labels v v') (name : String) :
    (confined root spare).Sim w never (fun _ _ _ => True) (Evaluation.assign name v i c)
      (Evaluation.assign name v' i' c') := by
  simp only [Evaluation.assign, hm, ho]
  split
  · refine (confined_set hi hv name).seq fun w' hw b b' hb => ?_
    subst hb
    cases b with
    | true => exact .ret trivial
    | false => exact confined_define (hw.twins hroot) (hw.loose hv) name
  · split
    · exact confined_define hroot hv name
    · exact confined_define hroot (.inl .unknown) name

/-- Right inside of the root only variables that both bound are assigned, and in functions
the same is done in both. -/
theorem confined_assign (hat : (confined root spare).At w i i' c c')
    (hv : (confined root spare).Loosely w v v') (name : String) :
    (confined root spare).Sim w never (fun _ _ _ => True)
      ((Policy.confined root).assign name v i c) (Evaluation.assign name v' i' c') := by
  intro s s' hs
  by_cases hle : s.frames.assigned name i c ≤ root
  · have hrefused : (Policy.confined root).assign name v i c s = (.error Policy.refusal, s) :=
      if_pos hle
    exact .first (by rw [hrefused]; exact .inl rfl)
  rw [show (Policy.confined root).assign name v i c s = Evaluation.assign name v i c s from
    if_neg hle]
  rcases hat.scope.vars with ⟨hroot, hsub⟩ | ⟨hroot, hm, ho⟩
  · rw [Frames.assigned, hroot] at hle
    by_cases hname : name ∈ c.mutables
    · rw [if_pos hname] at hle
      simp only [Evaluation.assign, if_pos hname, if_pos (hsub name hname),
        Eval.bind_apply, Eval.set]
      have hfind := hs.1.find hat.env name
      generalize s.frames.find? name i = o, s'.frames.find? name i' = o' at hfind hle
      cases hfind with
      | none => exact (hle (Nat.le_refl _)).elim
      | some ho =>
        refine .agree w le_rfl ⟨hs.1.define ho hv name, fun k hk => ?_⟩ (.ok trivial)
        exact Nat.lt_of_lt_of_eq (hs.2 k hk) (Frames.size_define _ _ _ _).symm
    · rw [if_neg hname] at hle
      exact (hle (Nat.le_refl _)).elim
  · exact confined_assignAlike hat.env hroot hm ho hv name s s' hs

theorem confined_off {α : Type} {refused : Fault → Prop} {given : α → Prop} {r : Except Fault α}
    (h : (confined root spare).Off refused given r) :
    (confined root spare).Off refused never r := by
  cases r with
  | ok a => exact h.1.elim
  | error f => exact h

theorem confined_sound (root : FrameId) (spare : FrameId → Prop) :
    (confined root spare).Lockstep where
  frames_mono _ _ hw := Pairing.Grows.frames hw
  serials_mono _ _ hw := Pairing.Grows.serials hw
  own_mono _ _ _ _ hw hi := Pairing.Grows.twins hw hi
  own_frames _ _ _ := .inl
  scope_mono w w' c c' hw h := by
    refine ⟨h.same, fun name d hd => ?_, h.vars.imp id fun h => ⟨hw.twins h.1, h.2⟩⟩
    obtain ⟨hf, hb⟩ := h.defs name d hd
    exact ⟨hf.mono hw.frames hw.serials, hb.imp fun _ _ h => h.mono hw.frames hw.serials⟩
  scope_eq w c c' h := h.same
  scope_defs w c c' h := h.defs
  binding w c c' h names := by
    refine ⟨h.same, h.defs, h.vars.imp (fun h => ⟨h.1, fun name hname => ?_⟩) fun h => ?_⟩
    · exact List.mem_append.2 ((List.mem_append.1 hname).imp id (h.2 name))
    · exact ⟨h.1, congrArg (names ++ ·) h.2.1, h.2.2⟩
  expandingToo w c c' h name := by
    refine ⟨⟨h.same.1, congrArg (name :: ·) h.same.2.1, h.same.2.2⟩, h.defs, h.vars⟩
  entering w c c' i j h hi name names := by
    exact ⟨⟨h.same.1, congrArg (name :: ·) h.same.2.1, h.same.2.2⟩, h.defs, .inr ⟨hi, rfl, rfl⟩⟩
  atRoot w c c' i j h hi := ⟨⟨h.same.1, rfl, h.same.2.2⟩, h.defs, .inr ⟨hi, rfl, rfl⟩⟩
  newFrame w i j b b' hi hb s s' hs := by
    obtain ⟨w', hw, hadds, htwins, hs'⟩ := hs.1.newFrame hi hb
    refine .agree ⟨w', hadds.adds.without hs.2 w.2⟩ hw ⟨hs', fun k hk => ?_⟩ (.ok htwins)
    exact Nat.lt_of_lt_of_eq (Nat.lt_succ_of_lt (hs.2 k hk)) (Array.size_push _).symm
  define w i j v v' hi hv name := confined_define hi hv name
  lookup w i j hi name s s' hs := .agree w le_rfl hs (.ok (hs.1.lookup hi name))
  assign w i j c c' v v' hat hv name := confined_assign hat hv name
  closure w i j f f' b b' hi hf hb s s' hs := by
    obtain ⟨w', hw, hold, hserials, hs'⟩ := hs.1.newClosure
    refine .agree ⟨w', fun i i' hi hfr => w.2 i i' hi (hold i i' hfr)⟩ hw ⟨hs', hs.2⟩ (.ok ?_)
    refine .closure (hf.mono hw.frames hw.serials) ?_ (.some (hw.frames _ _ hi)) hserials
    exact hb.imp fun _ _ h => h.mono hw.frames hw.serials
  global w name s s' hs := .agree w le_rfl hs (.ok (hs.1.globals name))
  putGlobal w g g' hg name s s' hs := .agree w le_rfl ⟨hs.1.putGlobal hg name, hs.2⟩ (.ok trivial)
  operand ev ev' hev w expr expr' env env' scope scope' hx hat s s' hs := by
    rcases (hev hx hat s s' hs).ends fun _ => id with ⟨w', hw, hs', hr⟩ | hoff | hoff
    · exact .agree w' hw hs' (hr.mono fun _ _ => .inl)
    · exact .first (confined_off hoff)
    · exact .second (confined_off hoff)
  bind w f f' args args' hf ha := by
    refine .ret ?_
    rw [LambdaList.bind, LambdaList.bind, ← specs_eq hf]
    exact LambdaList.bindSpecs_loose (fun h => h.elim) ha
  home w i j c c' hi hc s s' hs := by
    simp only [confined, Policy.confined, Policy.plain]
    split
    · exact .first (.inl rfl)
    · rename_i hroot
      refine .agree w le_rfl hs (.ok ?_)
      cases hi with
      | some hi => exact hi
      | none => exact .inl (hc.vars.resolve_left fun h => hroot ⟨rfl, h.1⟩).1
  primitive w name f hf := Primitive.respects_named w.1.faithful hf
  rxForms _ _ _ hf := Rx.ofForms_agrees hf
  rxForm _ _ _ hf := Rx.ofForm_agrees hf
  refused_depth f hf := by
    rw [hf]
    rintro ⟨⟩

end Simulation

namespace Evaluation

/-- Evaluates in a new frame inside `env`, and refuses to do more than that. -/
def confinedIn (depth : Nat) (expr : Value) (env : FrameId) (mutables : List String)
    (defs : Definitions) (loopLimit : Nat) : Eval Value := do
  let root ← Eval.newFrame (some env) []
  evalBy (.confined root) depth expr root ⟨defs, root, [], mutables, [], loopLimit⟩

variable {depth depth' : Nat} {expr v v' : Value} {env env' : FrameId} {mutables : List String}
  {defs : Definitions} {loopLimit : Nat} {scope' : Scope} {s s' t t' : Store}

/-- What is not refused is done without refusal just so. -/
theorem eval_of_confinedIn (hd : depth ≤ depth')
    (h : confinedIn depth expr env mutables defs loopLimit s = (.ok v, t)) :
    eval depth' expr s.frames.size ⟨defs, s.frames.size, [], mutables, [], loopLimit⟩
        { s with frames := s.frames.push ⟨.ofList [], some env⟩ } = (.ok v, t) ∧
      Keeps s.frames.size s.frames t.frames := by
  have hS := Supervision.identical_sound (Policy.confined_checks s.frames.size)
  have hpush : Keeps s.frames.size s.frames (s.frames.push ⟨.ofList [], some env⟩) :=
    (Keeps.refl (Nat.le_refl _)).push _
  obtain ⟨hrun, hk, -⟩ := (Supervision.along_ends (Simulation.evalBy_follows hS (.inr ⟨hd, rfl⟩))
    (Nat.le_refl _) trivial trivial hpush.size).of_ok h
  exact ⟨hrun, hpush.trans (hk hpush.size)⟩

theorem evaluate_of_confinedIn (hd : depth ≤ maxDepth)
    (h : confinedIn depth expr env mutables defs loopLimit s = (.ok v, t)) :
    evaluate expr (some env) mutables defs loopLimit s = (.ok v, t) :=
  Eval.orDefault_ok .unknown (eval_of_confinedIn hd h).1

/-- What is not refused is done in place just so. -/
theorem confinedIn_inPlace {spare : FrameId → Prop} {w : Pairing.Without spare}
    (hs : s.Beside spare w s') (henv : w.1.labels.frames env env') (hx : expr.IsPlain)
    (hdefs : defs.IsPlain) (hscope : defs = scope'.defs ∧ [] = scope'.expanding ∧
      loopLimit = scope'.loopLimit) (hd : depth ≤ depth')
    (h : confinedIn depth expr env mutables defs loopLimit s = (.ok v, t))
    (h' : eval depth' expr env' scope' s' = (.ok v', t')) :
    ∃ w', w ≤ w' ∧ t.Beside spare w' t' ∧ w'.1.shadows s.frames.size env' ∧
      Matches w'.1.labels v v' := by
  obtain ⟨w₁, hw₁, hadds, hshadow, hs₁⟩ := hs.1.newShadow henv
  have hS := Simulation.confined_sound s.frames.size spare
  let W₁ : Pairing.Without spare := ⟨w₁, hadds.without hs.2 w.2⟩
  have hat : (Simulation.confined s.frames.size spare).At W₁ s.frames.size env'
      ⟨defs, s.frames.size, [], mutables, [], loopLimit⟩ scope' :=
    ⟨.inr hshadow, hscope, hdefs.matches _, .inl ⟨rfl, nofun⟩⟩
  have hbeside : Store.Beside spare W₁
      { s with frames := s.frames.push ⟨.ofList [], some env⟩ } s' :=
    ⟨hs₁, fun i hi => Nat.lt_of_lt_of_eq (Nat.lt_succ_of_lt (hs.2 i hi)) (Array.size_push _).symm⟩
  have hfollows := Simulation.evalBy_follows hS (.inr ⟨hd, rfl⟩) (hx.matches _) hat
  obtain ⟨w', hw, ht, hv⟩ := hfollows.of_ok id (fun _ => id) hbeside h h'
  have hle : w₁ ≤ w'.1 := hw
  have hww : w.1 ≤ w'.1 := le_trans hw₁ hle
  exact ⟨w', hww, ht, hle.shadows hshadow, hv⟩

end Evaluation

end PatternLint
