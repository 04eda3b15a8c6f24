import PatternLint.Proofs.CallerFrames

/-! What evaluations do to global variables. They find the values of some that wait for it, and
leave all others as they are. -/

namespace PatternLint

/-- What may become of a global variable in evaluations. -/
inductive Global.Later : Global → Global → Prop
  | same (g : Global) : Later g g
  | found (e v : Value) : Later (.pending e) (.known v)

theorem Global.Later.trans {g g' g'' : Global} (h : g.Later g') (h' : g'.Later g'') :
    g.Later g'' := by
  cases h with
  | same => exact h'
  | found e v =>
    cases h'
    exact .found e v

theorem Global.later_found (e : Value) (r : Except Fault Value) :
    (Global.pending e).Later (.found e r) := by
  cases r with
  | ok v => exact .found e v
  | error f => exact .same _

/-- Global variables as they may be after evaluations. -/
def Table.Later (T T' : Table Global) : Prop :=
  ∀ name, Option.Rel Global.Later (T.get? name) (T'.get? name)

namespace Table.Later

variable {T T' T'' : Table Global} {name : String} {e v : Value} {g : Global}

theorem refl (T : Table Global) : T.Later T := by
  intro name
  cases T.get? name with
  | none => exact .none
  | some g => exact .some (.same g)

theorem trans (h : T.Later T') (h' : T'.Later T'') : T.Later T'' := by
  intro name
  have hn := h name
  have hn' := h' name
  generalize T.get? name = o, T'.get? name = o', T''.get? name = o'' at hn hn'
  cases hn with
  | none =>
    cases hn'
    exact .none
  | some hg =>
    cases hn' with
    | some hg' => exact .some (hg.trans hg')

theorem known (h : T.Later T') (hv : T.get? name = some (.known v)) :
    T'.get? name = some (.known v) := by
  have hn := h name
  rw [hv] at hn
  generalize T'.get? name = o' at hn
  cases hn with
  | some hg =>
    cases hg
    rfl

theorem busy (h : T.Later T') (he : T'.get? name = some (.busy e)) :
    T.get? name = some (.busy e) := by
  have hn := h name
  rw [he] at hn
  generalize T.get? name = o at hn
  cases hn with
  | some hg =>
    cases hg
    rfl

theorem none_iff (h : T.Later T') : T.get? name = none ↔ T'.get? name = none := by
  have hn := h name
  generalize T.get? name = o, T'.get? name = o' at hn
  cases hn with
  | none => exact Iff.rfl
  | some _ => exact ⟨nofun, nofun⟩

/-- What a variable is after its value was looked for is later than what it was before. -/
theorem found (h : (T.put name (.busy e)).Later T') (he : T.get? name = some (.pending e))
    (r : Except Fault Value) : T.Later (T'.put name (.found e r)) := by
  intro k
  rw [Table.get?_put]
  split
  · rename_i hk
    rw [hk, he]
    exact .some (Global.later_found e r)
  · rename_i hk
    have hother := h k
    rwa [Table.get?_put_of_ne hk] at hother

end Table.Later

/-- A store as it may be after evaluations, apart from what the frames bind. -/
structure Store.Progress (s t : Store) : Prop where
  frames : s.frames.size ≤ t.frames.size
  closures : s.closures ≤ t.closures
  globals : s.globals.Later t.globals

theorem Store.Progress.trans {s t u : Store} (h : s.Progress t) (h' : t.Progress u) :
    s.Progress u :=
  ⟨Nat.le_trans h.frames h'.frames, Nat.le_trans h.closures h'.closures,
    h.globals.trans h'.globals⟩

theorem Store.Progress.of_frames {s : Store} {fs : Frames} (h : s.frames.size ≤ fs.size) :
    s.Progress { s with frames := fs } :=
  ⟨h, Nat.le_refl _, .refl _⟩

@[reducible] def Store.progress : Preorder Store where
  le := Store.Progress
  le_refl _ := .of_frames (Nat.le_refl _)
  le_trans _ _ _ := Store.Progress.trans

/-- Evaluations of the language on their way through stores. -/
abbrev Simulation.progressing : Simulation :=
  Supervision.along (fun _ => True) Store.progress (fun _ _ => True) .plain .plain 0 never

/-- The language with some faults for what is too deep. -/
theorem progress_accompanies_of (fault fault' : Fault) {refused : Fault → Prop}
    (hr : ∀ f, refused f → f.handling ≠ .depth) :
    Supervision.Accompanies (fun _ => True) Store.progress (fun _ _ => True)
      { Policy.plain with tooDeep := fault } { Policy.plain with tooDeep := fault' } 0 refused where
  passive s t _ _ hsize hc hg := by
    refine ⟨⟨hsize, hc, ?_⟩, trivial⟩
    rw [hg]
    exact .refl _
  operand ev ev' hev w expr expr' env env' scope scope' hx hat s s' hs :=
    ((hev hx hat s s' hs).strict id Simulation.never).mono (fun _ => id) fun _ _ _ => .inl
  assign name v env scope _ s _ _ := by
    obtain ⟨u, hu⟩ := assign_eq name v env scope s
    change Evaluation.assign name v env scope s = Evaluation.assign name v env scope s ∧
      s.Progress (Evaluation.assign name v env scope s).2 ∧ _ ∨ _
    rw [hu]
    exact .inl ⟨rfl, .of_frames (Nat.le_of_eq (Frames.size_define _ _ _ _).symm), trivial,
      Nat.zero_le _⟩
  bind _ _ s _ _ := .inl ⟨rfl, Store.progress.le_refl s, trivial, Nat.zero_le _⟩
  home _ _ s _ _ := .inl ⟨rfl, Store.progress.le_refl s, trivial, Nat.zero_le _⟩
  refused_depth := hr

theorem progress_readsGlobals_of {p q : Policy} {refused : Fault → Prop} {ev ev' : Evaluator}
    (h : Supervision.Accompanies (fun _ => True) Store.progress (fun _ _ => True) p q 0 refused)
    (hev : (Supervision.along (fun _ => True) Store.progress (fun _ _ => True) p q 0
      refused).Follows ev ev') :
    (Supervision.along (fun _ => True) Store.progress (fun _ _ => True) p q 0
      refused).ReadsGlobals ev ev' := by
  refine Supervision.along_readsGlobals h hev (fun _ _ _ _ _ => trivial) ?_
  intro s name e scope r r' t he _ _ _ _ _ _ ht _
  refine ⟨⟨?_, ht.closures, ht.globals.found he r⟩, trivial⟩
  refine Nat.le_trans ?_ ht.frames
  rw [Store.finding, Array.size_push]
  exact Nat.le_succ _

theorem progress_accompanies : Supervision.Accompanies (fun _ => True) Store.progress
    (fun _ _ => True) .plain .plain 0 Simulation.never :=
  progress_accompanies_of .tooDeep .tooDeep fun _ h => h.elim

theorem progress_readsGlobals {ev : Evaluator} (hev : Simulation.progressing.Follows ev ev) :
    Simulation.progressing.ReadsGlobals ev ev :=
  progress_readsGlobals_of progress_accompanies hev

/-- However its value comes about, or fails to, a variable that is asked for has only come to be
known. -/
theorem globalValue_progress {ev : Evaluator} (hev : Simulation.progressing.Follows ev ev)
    (name : String) (scope : Scope) (s : Store) :
    s.Progress (Evaluation.globalValue .plain ev name scope s).2 := by
  have hsim := progress_readsGlobals hev (w := s)
    ⟨(rfl : scope = scope), Nat.zero_le _, trivial⟩ name
  rcases Supervision.ends_of_sim hsim trivial (Nat.zero_le _) with ⟨-, -, h, -⟩ | ⟨_, -, hf⟩
  · exact h
  · exact hf.elim

theorem eval_progresses (depth : Nat) :
    Simulation.progressing.Follows (eval depth) (eval depth) := by
  have hS := Supervision.along_sound progress_accompanies
  refine Simulation.evalBy_follows_of hS (.inl ⟨rfl, rfl⟩) fun d d' hd hev => ?_
  obtain rfl : d = d' := by omega
  exact progress_readsGlobals hev

theorem evaluate_progress (expr : Value) (env : Option FrameId) (mutables : List String)
    (defs : Definitions) (loopLimit : Nat) (s : Store) :
    s.Progress (evaluate expr env mutables defs loopLimit s).2 := by
  have hends : Supervision.EndTogether _ Store.progress _ s
      (evaluate expr env mutables defs loopLimit s) (evaluate expr env mutables defs loopLimit s) :=
    Supervision.within_ends progress_accompanies (eval_progresses maxDepth) trivial trivial
      (Nat.zero_le _)
  rcases hends with ⟨-, -, h, -⟩ | ⟨_, -, hf⟩
  · exact h
  · exact hf.elim

end PatternLint
