import PatternLint.Proofs.BareRuns

/-! Evaluations in two stores of which the second has two frames, one inside the other, for
one frame of the first. -/

namespace PatternLint

variable {fs fs' : Frames} {i i' id : FrameId} {outer outer' : Option FrameId} {name : String}
  {v v' : Value}

theorem Frames.valueIn?_push (h : i < fs.size) (frame : Frame) :
    Frames.valueIn? (fs.push frame) name i = fs.valueIn? name i := by
  rw [Frames.valueIn?, Frames.valueIn?, Array.getElem?_push, if_neg (Nat.ne_of_lt h)]

theorem Frames.valueIn?_push_self (fs : Frames) (bindings : List (String × Value))
    (outer : Option FrameId) : Frames.valueIn? (fs.push ⟨.ofList bindings, outer⟩) name fs.size =
      (Table.ofList bindings).get? name := by
  rw [Frames.valueIn?, Array.getElem?_push_size]
  rfl

/-- Frames with the same variables that lie inside frames that stand for each other. -/
structure Frames.Twins (c : Labels) (fs fs' : Frames) (i i' : FrameId) : Prop where
  values : ∀ name, Same c (fs.valueIn? name i) (fs'.valueIn? name i')
  inside : ∃ o o', fs.Inside i o ∧ fs'.Inside i' o' ∧ Option.Rel c.frames o o'

namespace Frames.Twins

variable {w w' : Pairing}

theorem mono (hw : w ≤ w') (h : fs.Twins w.labels fs' i i') : fs.Twins w'.labels fs' i i' := by
  obtain ⟨o, o', ho, ho', hoo⟩ := h.inside
  exact ⟨fun name => rel_imp (fun _ _ => hw.loose) (h.values name), o, o', ho, ho',
    rel_imp hw.frames hoo⟩

theorem push {c : Labels} (h : fs.Twins c fs' i i') (f f' : Frame) :
    Frames.Twins c (fs.push f) (fs'.push f') i i' := by
  obtain ⟨hvalues, o, o', ho, ho', hoo⟩ := h
  refine ⟨fun name => ?_, o, o', ho.push f, ho'.push f', hoo⟩
  rw [Frames.valueIn?_push ho.lt, Frames.valueIn?_push ho'.lt]
  exact hvalues name

end Frames.Twins

/-- Stores that are alike but for the frame `n`. The second has some of its variables in the frame
`top` and the other ones in `n`, inside of which `top` lies. -/
structure Store.Stacked (n top : FrameId) (w : Pairing) (s s' : Store) : Prop where
  twins : ∀ ⦃i i'⦄, w.twins i i' → s.frames.Twins w.labels s'.frames i i'
  apart : ∀ ⦃i i'⦄, w.twins i i' → i ≠ n ∧ i' ≠ n ∧ i' ≠ top
  stack : ∀ ⦃i i'⦄, w.shadows i i' → i = n ∧ i' = top
  values : ∀ name, Same w.labels (s.frames.valueIn? name n)
    ((s'.frames.valueIn? name top).or (s'.frames.valueIn? name n))
  upper : s'.frames.Inside top (some n)
  lower : ∃ o o', s.frames.Inside n (some o) ∧ s'.frames.Inside n (some o') ∧ w.twins o o'
  serials : ∀ ⦃k k'⦄, w.serials k k' → k < s.closures ∧ k' < s'.closures
  globals : ∀ name, Option.Rel (Global.Same False w.labels) (s.globals.get? name)
    (s'.globals.get? name)

/-- Where the variable `name` is in the two stores: in twins, or in one of
the two stacked frames. -/
inductive Store.Holds (n top : FrameId) (w : Pairing) (s' : Store) (name : String) :
    FrameId → FrameId → Prop
  | twins {i i' : FrameId} (h : w.twins i i') : Holds n top w s' name i i'
  | upper (h : (s'.frames.valueIn? name top).isSome) : Holds n top w s' name n top
  | lower (h : s'.frames.valueIn? name top = none) : Holds n top w s' name n n

namespace Store.Stacked

variable {n top : FrameId} {w w' : Pairing} {s s' : Store}

theorem frames_lt (h : s.Stacked n top w s') (hi : w.labels.frames i i') :
    i < s.frames.size ∧ i' < s'.frames.size := by
  rcases hi with hi | hi
  · obtain ⟨o, o', ho, ho', -⟩ := (h.twins hi).inside
    exact ⟨ho.lt, ho'.lt⟩
  · obtain ⟨rfl, rfl⟩ := h.stack hi
    obtain ⟨o, o', ho, -⟩ := h.lower
    exact ⟨ho.lt, h.upper.lt⟩

/-- Variables are found in the same places. -/
theorem find (h : s.Stacked n top w s') (hi : w.labels.frames i i') (name : String) :
    Option.Rel (Store.Holds n top w s' name) (s.frames.find? name i) (s'.frames.find? name i') := by
  induction hk : i using Nat.strongRecOn generalizing i i' with
  | _ k ih =>
    subst hk
    rcases hi with hi | hi
    · obtain ⟨o, o', ho, ho', hoo⟩ := (h.twins hi).inside
      have hv := (h.twins hi).values name
      cases hv' : s'.frames.valueIn? name i' with
      | some x =>
        rw [hv'] at hv
        rw [Frames.find?_of_bound (rel_isSome hv), Frames.find?_of_bound (by rw [hv']; rfl)]
        exact .some (.twins hi)
      | none =>
        rw [hv'] at hv
        rw [ho.find? (eq_none_of_rel hv), ho'.find? hv']
        cases hoo with
        | none => exact .none
        | some hoo => exact ih _ (ho.2 _ rfl) hoo rfl
    · obtain ⟨rfl, rfl⟩ := h.stack hi
      obtain ⟨o, o', ho, ho', hoo⟩ := h.lower
      have hv := h.values name
      cases htop : s'.frames.valueIn? name i' with
      | some x =>
        have htop' : (s'.frames.valueIn? name i').isSome := by rw [htop]; rfl
        rw [htop] at hv
        rw [Frames.find?_of_bound (rel_isSome hv), Frames.find?_of_bound htop']
        exact .some (.upper htop')
      | none =>
        rw [htop, Option.none_or] at hv
        rw [h.upper.find? htop, Option.bind_some]
        cases hlow : s'.frames.valueIn? name i with
        | some x =>
          rw [hlow] at hv
          rw [Frames.find?_of_bound (rel_isSome hv), Frames.find?_of_bound (by rw [hlow]; rfl)]
          exact .some (.lower htop)
        | none =>
          rw [hlow] at hv
          rw [ho.find? (eq_none_of_rel hv), ho'.find? hlow]
          exact ih _ (ho.2 _ rfl) (.inl hoo) rfl

theorem lookup (h : s.Stacked n top w s') (hi : w.labels.frames i i') (name : String) :
    Same w.labels (s.frames.lookup? name i) (s'.frames.lookup? name i') := by
  refine rel_bind (h.find hi name) fun o o' ho => ?_
  have hstack := h.values name
  cases ho with
  | twins ho => exact (h.twins ho).values name
  | upper htop => rwa [Option.or_of_isSome htop] at hstack
  | lower htop => rwa [htop, Option.none_or] at hstack

/-- Changing a variable where it is. -/
theorem define (h : s.Stacked n top w s') (hi : Store.Holds n top w s' name i i')
    (hlt : i < s.frames.size ∧ i' < s'.frames.size) (hv : Loose False w.labels v v') :
    Store.Stacked n top w { s with frames := s.frames.define i name v }
      { s' with frames := s'.frames.define i' name v' } where
  twins j j' hj := by
    obtain ⟨hvalues, o, o', ho, ho', hoo⟩ := h.twins hj
    refine ⟨fun other => ?_, o, o', ho.define .., ho'.define .., hoo⟩
    have hsame : j = i ↔ j' = i' := by
      cases hi with
      | twins hi => exact w.twins_iff hj hi
      | upper => exact iff_of_false (h.apart hj).1 (h.apart hj).2.2
      | lower => exact iff_of_false (h.apart hj).1 (h.apart hj).2.1
    simp only [Frames.valueIn?_define hlt.1, Frames.valueIn?_define hlt.2, hsame]
    split
    · exact .some hv
    · exact hvalues other
  apart := h.apart
  stack := h.stack
  values other := by
    have hn := h.upper.2 n rfl
    simp only [Frames.valueIn?_define hlt.1, Frames.valueIn?_define hlt.2]
    have hstack := h.values other
    cases hi with
    | twins hi =>
      obtain ⟨h₁, h₂, h₃⟩ := h.apart hi
      simpa [h₁.symm, h₂.symm, h₃.symm] using hstack
    | upper htop =>
      by_cases hother : other = name
      · simpa [hother, Nat.ne_of_lt hn] using hv
      · simpa [hother] using hstack
    | lower htop =>
      by_cases hother : other = name
      · simpa [hother, Nat.ne_of_gt hn, htop] using hv
      · simpa [hother] using hstack
  upper := h.upper.define ..
  lower := by
    obtain ⟨o, o', ho, ho', hoo⟩ := h.lower
    exact ⟨o, o', ho.define .., ho'.define .., hoo⟩
  serials := h.serials
  globals := h.globals

theorem newFrame {o o' : Option FrameId} {bs bs' : List (String × Value)}
    (h : s.Stacked n top w s') (ho : Option.Rel w.labels.frames o o')
    (hb : SameBindings False w.labels bs bs') :
    ∃ w', w ≤ w' ∧ w'.twins s.frames.size s'.frames.size ∧
      Store.Stacked n top w' { s with frames := s.frames.push ⟨.ofList bs, o⟩ }
        { s' with frames := s'.frames.push ⟨.ofList bs', o'⟩ } := by
  have hlt : ∀ i i', w.labels.frames i i' → i < s.frames.size ∧ i' < s'.frames.size :=
    fun _ _ => h.frames_lt
  have hw := w.le_withTwins fun i i' hi => (hlt i i' hi).imp Nat.ne_of_lt Nat.ne_of_lt
  obtain ⟨l, l', hl, hl', hll⟩ := h.lower
  refine ⟨_, hw, .inr ⟨rfl, rfl⟩, ?_, ?_, h.stack, fun name => ?_, h.upper.push _,
    ⟨l, l', hl.push _, hl'.push _, .inl hll⟩, h.serials,
    fun name => rel_imp (fun _ _ => Global.Same.mono hw) (h.globals name)⟩
  · rintro i i' (hi | ⟨rfl, rfl⟩)
    · exact ((h.twins hi).mono hw).push _ _
    · refine ⟨fun name => ?_, o, o', .push_self _ _ ?_, .push_self _ _ ?_, rel_imp hw.frames ho⟩
      · rw [Frames.valueIn?_push_self, Frames.valueIn?_push_self]
        exact rel_imp (fun _ _ => hw.loose) (hb.ofList.lookup name)
      · rintro k rfl
        cases ho with
        | some ho => exact (hlt _ _ ho).1
      · rintro k rfl
        cases ho with
        | some ho => exact (hlt _ _ ho).2
  · rintro i i' (hi | ⟨rfl, rfl⟩)
    · exact h.apart hi
    · exact ⟨Nat.ne_of_gt hl.lt, Nat.ne_of_gt hl'.lt, Nat.ne_of_gt h.upper.lt⟩
  · rw [Frames.valueIn?_push hl.lt, Frames.valueIn?_push h.upper.lt, Frames.valueIn?_push hl'.lt]
    exact rel_imp (fun _ _ => hw.loose) (h.values name)

theorem newClosure (h : s.Stacked n top w s') :
    ∃ w', w ≤ w' ∧ w'.serials s.closures s'.closures ∧
      Store.Stacked n top w' { s with closures := s.closures + 1 }
        { s' with closures := s'.closures + 1 } := by
  have hw := w.le_withSerials fun _ _ hk => h.serials hk
  refine ⟨_, hw, .inr ⟨rfl, rfl⟩, fun _ _ hi => (h.twins hi).mono hw, h.apart, h.stack,
    fun name => rel_imp (fun _ _ => hw.loose) (h.values name), h.upper, h.lower, ?_,
    fun name => rel_imp (fun _ _ => Global.Same.mono hw) (h.globals name)⟩
  rintro k k' (hk | ⟨rfl, rfl⟩)
  · have := h.serials hk
    exact ⟨Nat.lt_succ_of_lt this.1, Nat.lt_succ_of_lt this.2⟩
  · exact ⟨Nat.lt_succ_self _, Nat.lt_succ_self _⟩

theorem putGlobal {g g' : Global} (h : s.Stacked n top w s')
    (hg : Global.Same False w.labels g g') (name : String) :
    Store.Stacked n top w { s with globals := s.globals.put name g }
      { s' with globals := s'.globals.put name g' } :=
  { h with globals := SameGlobals.put h.globals hg name }

end Store.Stacked

/-- Frames before `n` stand for themselves, and `top` stands for `n`. -/
def Pairing.stack (n top closures : Nat) : Pairing where
  twins i i' := i = i' ∧ i < n
  shadows i i' := i = n ∧ i' = top
  serials k k' := k = k' ∧ k < closures
  twins_iff := by
    rintro i _ j _ ⟨rfl, -⟩ ⟨rfl, -⟩
    rfl
  serials_iff := by
    rintro k _ l _ ⟨rfl, -⟩ ⟨rfl, -⟩
    rfl
  apart := by
    rintro i i' j' ⟨rfl, -⟩ ⟨-, h⟩
    exact Nat.lt_irrefl _ h

open Region in
/-- A variable that is added to the frame `n` may as well be that of a new frame inside of it. -/
theorem stacked_start {n env : FrameId} {u : Store} (hu : everywhere.Tidy u) (hv : v.Bare)
    (henv : u.frames.Inside n (some env)) (hinside : ∀ i < n, ∃ o, u.frames.Inside i o) :
    Store.Stacked n u.frames.size (.stack n u.frames.size u.closures)
      { u with frames := u.frames.define n name v }
      { u with frames := u.frames.push ⟨.ofList [(name, v)], some n⟩ } where
  twins := by
    rintro i _ ⟨rfl, hi⟩
    obtain ⟨o, ho⟩ := hinside i hi
    refine ⟨fun other => ?_, o, o, ho.define .., ho.push _, ?_⟩
    · rw [Frames.valueIn?_define henv.lt, Frames.valueIn?_push ho.lt,
        if_neg fun h => Nat.ne_of_lt hi h.1]
      exact .refl fun x hx => hu.values i other x (.inr (Nat.zero_le _)) hx
    · cases o with
      | none => exact .none
      | some o => exact .some (.inl ⟨rfl, Nat.lt_trans (ho.2 o rfl) hi⟩)
  apart := by
    rintro i _ ⟨rfl, hi⟩
    exact ⟨Nat.ne_of_lt hi, Nat.ne_of_lt hi, Nat.ne_of_lt (Nat.lt_trans hi henv.lt)⟩
  stack _ _ h := h
  values other := by
    rw [Frames.valueIn?_define henv.lt, Frames.valueIn?_push_self, Frames.valueIn?_push henv.lt]
    by_cases hother : other = name
    · subst hother
      have hself : Loose False (Pairing.stack n u.frames.size u.closures).labels v v :=
        .inl (hv.plain.matches _)
      simpa [Table.ofList] using hself
    · have hnone : (Table.ofList [(name, v)]).get? other = none := by
        simp [Table.ofList, Table.get?_put_of_ne hother]
      rw [if_neg fun h => hother h.2, hnone, Option.none_or]
      exact .refl fun x hx => hu.values n other x (.inr (Nat.zero_le _)) hx
  upper := .push_self _ _ fun o ho => by
    cases ho
    exact henv.lt
  lower := ⟨env, env, henv.define .., henv.push _, rfl, henv.2 env rfl⟩
  serials := by
    rintro k _ ⟨rfl, hk⟩
    exact ⟨hk, hk⟩
  globals other := by
    cases hg : u.globals.get? other with
    | none => exact .none
    | some g => exact .some ((hu.globals other g hg).isPlain.same _ _)

namespace Simulation

/-- Evaluations in two stores with stacked frames. Neither makes up for a
depth that was not enough. -/
def stacked (n top : FrameId) : Simulation where
  World := Pairing
  labels := Pairing.labels
  own := Pairing.twins
  store := Store.Stacked n top
  scope := SameScope
  first := .strict
  second := .strict
  tolerant := False
  refused := never

variable {n top : FrameId} {w : Pairing} {scope scope' : Scope}

theorem stacked_define (hi : w.twins i i') (hv : Loose False w.labels v v') (name : String) :
    (stacked n top).Sim w never (fun _ _ _ => True) (Eval.define i name v)
      (Eval.define i' name v') :=
  fun _ _ hs => .agree w le_rfl (hs.define (.twins hi) (hs.frames_lt (.inl hi)) hv) (.ok trivial)

theorem stacked_set (hi : w.labels.frames i i') (hv : Loose False w.labels v v') (name : String) :
    (stacked n top).Sim w never (fun _ => Eq) (Eval.set i name v) (Eval.set i' name v') := by
  intro s s' (hs : s.Stacked n top w s')
  have hfind := hs.find hi name
  simp only [Eval.set]
  rcases ho : s.frames.find? name i with _ | o <;>
    rcases ho' : s'.frames.find? name i' with _ | o' <;>
    rw [ho, ho'] at hfind
  · exact .agree w le_rfl hs (.ok rfl)
  · cases hfind
  · cases hfind
  · cases hfind with
    | some hholds =>
      have hlt := Frames.lt_of_bound (Frames.bound_of_find? ho)
      have hlt' := Frames.lt_of_bound (Frames.bound_of_find? ho')
      exact .agree w le_rfl (hs.define hholds ⟨hlt, hlt'⟩ hv) (.ok rfl)

theorem stacked_assign (hat : (stacked n top).At w i i' scope scope')
    (hv : Loose False w.labels v v') (name : String) :
    (stacked n top).Sim w never (fun _ _ _ => True) (Evaluation.assign name v i scope)
      (Evaluation.assign name v' i' scope') := by
  have hscope : SameScope w scope scope' := hat.scope
  rw [hscope.rest]
  exact assign_follows (stacked_set hat.env hv name)
    (fun w' (hw : w.Grows w') => stacked_define (hw.twins hscope.root) (hw.loose hv) name)
    (stacked_define hscope.root (.inl .unknown) name)

theorem stacked_lockstep (n top : FrameId) : (stacked n top).Lockstep where
  frames_mono _ _ := Pairing.Grows.frames
  serials_mono _ _ hw := Pairing.Grows.serials hw
  own_mono _ _ _ _ hw hi := Pairing.Grows.twins hw hi
  own_frames _ _ _ := .inl
  scope_mono w w' c c' hw h := ⟨Pairing.Grows.twins hw h.root, h.rest, h.given⟩
  scope_eq w c c' h := by rw [h.rest]; exact ⟨rfl, rfl, rfl⟩
  scope_defs w c c' h := h.given.matches w.labels
  binding w c c' h names := ⟨h.root, by rw [h.rest]; rfl, h.given⟩
  expandingToo w c c' h name := ⟨h.root, by rw [h.rest]; rfl, h.given⟩
  entering w c c' i j h hi name names := ⟨hi, by rw [h.rest]; rfl, h.given⟩
  newFrame w i j b b' hi hb s s' hs := by
    obtain ⟨w', hw, htwins, hs'⟩ := hs.newFrame hi hb
    exact .agree w' hw hs' (.ok htwins)
  define w i j v v' hi hv name := stacked_define hi hv name
  lookup w i j hi name s s' hs := .agree w le_rfl hs (.ok (hs.lookup hi name))
  assign w i j c c' v v' hat hv name := stacked_assign hat hv name
  closure w i j f f' b b' hi hf hb s s' hs := by
    obtain ⟨w', hw, hserials, hs'⟩ := hs.newClosure
    refine .agree w' hw hs' (.ok (.closure (hf.mono hw.frames hw.serials) ?_ ?_ hserials))
    · exact hb.imp fun _ _ h => h.mono hw.frames hw.serials
    · exact .some (hw.frames _ _ hi)
  operand ev ev' hev := hev.loosely id
  bind w f f' args args' hf ha := bind_follows id hf ha
  home w i j c c' hi hs := by
    refine .ret ?_
    cases hi with
    | none => exact .inl hs.root
    | some hi => exact hi
  primitive w name f hf := Primitive.respects_named w.faithful hf
  rxForms _ _ _ hf := Rx.ofForms_agrees hf
  rxForm _ _ _ hf := Rx.ofForm_agrees hf
  refused_depth _ h := h.elim
  atRoot _ _ _ _ _ hc hi := hc.atRoot hi
  global w name _ _ hs := .agree w le_rfl hs (.ok (hs.globals name))
  putGlobal w _ _ hg name _ _ hs := .agree w le_rfl (hs.putGlobal hg name) (.ok trivial)

end Simulation

end PatternLint
