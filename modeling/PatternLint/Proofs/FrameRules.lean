import PatternLint.Evaluation.Structure
import PatternLint.Proofs.BareValue
import PatternLint.Proofs.Drift
import PatternLint.Proofs.Settling

/-! Evaluations without functions leave the frames around them as they are: what the operations of
an evaluation do to those frames, and where an evaluation may be. -/

namespace PatternLint

section Frames

variable {fs gs hs : Frames} {name other : String} {env id i : FrameId} {outer : Option FrameId}
  {frame : Frame} {v : Value}

/-- A name that a frame binds is found there. -/
theorem Frames.find?_of_bound (h : (fs.valueIn? name id).isSome) : fs.find? name id = some id := by
  rw [Frames.find?]
  unfold Frames.valueIn? at h
  cases hframe : fs[id]? with
  | none => simp [hframe] at h
  | some frame =>
    rw [hframe] at h
    simp only [Table.contains]
    exact if_pos h

/-- Else the search goes on in the frame outside, which is older. -/
theorem Frames.find?_of_unbound (hframe : fs[id]? = some frame) (h : fs.valueIn? name id = none) :
    fs.find? name id = match frame.outer with
      | some outer => if outer < id then fs.find? name outer else none
      | none => none := by
  have hfree : ¬frame.vars.contains name := by
    rw [Frames.valueIn?, hframe, Option.bind_some] at h
    simp [Table.contains, h]
  rw [Frames.find?, hframe]
  cases ho : frame.outer with
  | none => simp [hfree, ho]
  | some outer => simp [hfree, ho]

/-- Where a name is found it is bound. -/
theorem Frames.bound_of_find? (h : fs.find? name env = some id) : (fs.valueIn? name id).isSome := by
  fun_induction Frames.find? fs name env with
  | case1 => cases h
  | case2 env frame hframe hb =>
    cases h
    rw [Frames.valueIn?, hframe]
    exact hb
  | case3 _ _ _ _ _ _ _ ih => exact ih h
  | case4 => cases h
  | case5 => cases h

theorem Frames.lt_of_bound (h : (fs.valueIn? name id).isSome) : id < fs.size := by
  by_contra hid
  rw [Frames.valueIn?, Array.getElem?_eq_none (Nat.le_of_not_lt hid)] at h
  cases h

/-- A definition changes one name of one frame. -/
theorem Frames.valueIn?_define (h : id < fs.size) : (fs.define id name v).valueIn? other i =
    if i = id ∧ other = name then some v else fs.valueIn? other i := by
  by_cases hi : i = id
  · subst hi
    rw [Frames.valueIn?, Frames.getElem?_define_self, Array.getElem?_eq_getElem h]
    simp only [Option.map_some, Option.bind_some, Table.get?_put, true_and]
    split
    · rfl
    · rw [Frames.valueIn?, Array.getElem?_eq_getElem h, Option.bind_some]
  · rw [if_neg fun h => hi h.1, Frames.valueIn?, Frames.getElem?_define_of_ne hi, Frames.valueIn?]

theorem Frames.define_of_size_le (h : fs.size ≤ id) : fs.define id name v = fs :=
  Array.ext_getElem? fun i => by
    by_cases hi : i = id
    · subst hi
      rw [Frames.getElem?_define_self, Array.getElem?_eq_none h, Option.map_none]
    · exact Frames.getElem?_define_of_ne hi

/-- Frames were added, and variables in frames, and the frames lie inside one another as before. -/
structure Frames.Grown (fs gs : Frames) : Prop where
  size : fs.size ≤ gs.size
  outer : ∀ i < fs.size, gs[i]?.map Frame.outer = fs[i]?.map Frame.outer
  bound : ∀ i name, (fs.valueIn? name i).isSome → (gs.valueIn? name i).isSome

namespace Frames.Grown

theorem refl (fs : Frames) : fs.Grown fs :=
  ⟨Nat.le_refl _, fun _ _ => rfl, fun _ _ => id⟩

theorem trans (h : fs.Grown gs) (h' : gs.Grown hs) : fs.Grown hs where
  size := Nat.le_trans h.size h'.size
  outer i hi := (h'.outer i (Nat.lt_of_lt_of_le hi h.size)).trans (h.outer i hi)
  bound i name hb := h'.bound i name (h.bound i name hb)

/-- Frames are added behind all others. -/
theorem push (fs : Frames) (frame : Frame) : fs.Grown (fs.push frame) := by
  have hsame : ∀ i < fs.size, (fs.push frame)[i]? = fs[i]? := fun i hi => by
    rw [Array.getElem?_push, if_neg (Nat.ne_of_lt hi)]
  refine ⟨by simp, fun i hi => by rw [hsame i hi], fun i name hb => ?_⟩
  by_cases hi : i < fs.size
  · rwa [Frames.valueIn?, hsame i hi]
  · simp [Frames.valueIn?, Array.getElem?_eq_none (Nat.le_of_not_lt hi)] at hb

/-- A frame that is not kept may be changed; then the name is bound in it. -/
theorem define (fs : Frames) (id : FrameId) (name : String) (v : Value) :
    fs.Grown (fs.define id name v) := by
  refine ⟨by simp, fun i _ => ?_, fun i other hb => ?_⟩
  · by_cases hi : i = id
    · subst hi
      rw [Frames.getElem?_define_self, Option.map_map]
      rfl
    · rw [Frames.getElem?_define_of_ne hi]
  · by_cases hid : id < fs.size
    · rw [Frames.valueIn?_define hid]
      split
      · rfl
      · exact hb
    · rwa [Frames.define_of_size_le (Nat.le_of_not_lt hid)]

end Frames.Grown

/-- What the frame `i` lies inside of. -/
def Frames.Inside (fs : Frames) (i : FrameId) (outer : Option FrameId) : Prop :=
  fs[i]?.map Frame.outer = some outer ∧ ∀ o ∈ outer, o < i

namespace Frames.Inside

/-- A frame inside of another exists. -/
theorem lt (h : fs.Inside i outer) : i < fs.size := by
  obtain ⟨f, hf, -⟩ := Option.map_eq_some_iff.1 h.1
  exact (Array.getElem?_eq_some_iff.1 hf).1

theorem define (h : fs.Inside i outer) (id : FrameId) (name : String) (v : Value) :
    (fs.define id name v).Inside i outer :=
  ⟨((Grown.define fs id name v).outer i h.lt).trans h.1, h.2⟩

theorem push (h : fs.Inside i outer) (frame : Frame) : Frames.Inside (fs.push frame) i outer :=
  ⟨((Grown.push fs frame).outer i h.lt).trans h.1, h.2⟩

/-- A new frame is inside of the one that it was made for. -/
theorem push_self (fs : Frames) (bindings : List (String × Value)) (h : ∀ o ∈ outer, o < fs.size) :
    Frames.Inside (fs.push ⟨.ofList bindings, outer⟩) fs.size outer :=
  ⟨by rw [Array.getElem?_push_size]; rfl, h⟩

theorem grown {gs : Frames} (h : fs.Inside i outer) (hg : fs.Grown gs) : gs.Inside i outer :=
  ⟨(hg.outer i h.lt).trans h.1, h.2⟩

/-- What a frame does not bind is looked for around it. -/
theorem find? (h : fs.Inside i outer) (hv : fs.valueIn? name i = none) :
    fs.find? name i = outer.bind (fs.find? name) := by
  obtain ⟨hframe, hlt⟩ := h
  obtain ⟨f, hf, rfl⟩ := Option.map_eq_some_iff.1 hframe
  rw [Frames.find?_of_unbound hf hv]
  cases ho : f.outer with
  | none => rfl
  | some o => exact if_pos (hlt o ho)

end Frames.Inside

end Frames

/-- Some frames that were there when an evaluation began, and how many frames there were. -/
structure Region where
  kept : FrameId → Prop
  start : Nat
  kept_lt : ∀ i, kept i → i < start

namespace Region

variable (R : Region)

/-- A frame that the evaluation may come to see. -/
def Sees (i : FrameId) : Prop :=
  R.kept i ∨ R.start ≤ i

/-- From a frame, the nearest one that binds a name is none of the kept ones. -/
def Safe (fs : Frames) (name : String) (env : FrameId) : Prop :=
  ∀ i, fs.find? name env = some i → ¬R.kept i

/-- What an evaluation sees is without functions, and the frames that it sees lie inside such frames
only. -/
structure Tidy (s : Store) : Prop where
  size : R.start ≤ s.frames.size
  outward : ∀ i frame outer, R.Sees i → s.frames[i]? = some frame → frame.outer = some outer →
    outer < i → R.Sees outer
  values : ∀ i name v, R.Sees i → s.frames.valueIn? name i = some v → v.Bare
  globals : ∀ name g, s.globals.get? name = some g → g.Bare

/-- Evaluations that leave the kept frames as they are. -/
def evaluation : Drift Store where
  Fine := R.Tidy
  Later s t := s.frames.Grown t.frames ∧ ∀ i, R.kept i → t.frames[i]? = s.frames[i]?
  refl _ := ⟨.refl _, fun _ _ => rfl⟩
  trans h h' := ⟨h.1.trans h'.1, fun i hi => (h'.2 i hi).trans (h.2 i hi)⟩

/-- Where an evaluation may be: the variables that it may assign in place are not those of a kept
frame. -/
structure At (s : Store) (env : FrameId) (scope : Scope) : Prop where
  defs : scope.defs.Bare
  root : ¬R.kept scope.root
  sees : R.Sees env
  lt : env < s.frames.size
  safe : ∀ name ∈ scope.mutables, R.Safe s.frames name env

variable {R} {fs gs : Frames} {name : String} {env id : FrameId} {frame : Frame} {v : Value}
  {w s t : Store} {scope : Scope} {names : List String}

/-- Variables that are added hide no kept frame that was not seen before. -/
theorem Safe.grown (h : R.Safe fs name env) (hg : fs.Grown gs)
    (hkept : ∀ i, R.kept i → (gs.valueIn? name i).isSome → (fs.valueIn? name i).isSome)
    (hlt : env < fs.size) : R.Safe gs name env := by
  induction env using Nat.strongRecOn with
  | _ env ih =>
    intro i hi
    by_cases hb : (gs.valueIn? name env).isSome
    · rw [Frames.find?_of_bound hb] at hi
      cases hi
      intro hk
      exact h env (Frames.find?_of_bound (hkept env hk hb)) hk
    · have hb' : ¬(fs.valueIn? name env).isSome := fun h => hb (hg.bound env name h)
      rw [Option.isSome_iff_ne_none, not_not] at hb hb'
      obtain ⟨f, hf⟩ : ∃ f, fs[env]? = some f := ⟨_, Array.getElem?_eq_getElem hlt⟩
      obtain ⟨g, hg'⟩ : ∃ g, gs[env]? = some g :=
        ⟨_, Array.getElem?_eq_getElem (Nat.lt_of_lt_of_le hlt hg.size)⟩
      have houter : g.outer = f.outer := by
        have := hg.outer env hlt
        rwa [hf, hg', Option.map_some, Option.map_some, Option.some_inj] at this
      unfold Safe at h
      rw [Frames.find?_of_unbound hf hb'] at h
      rw [Frames.find?_of_unbound hg' hb, houter] at hi
      cases ho : f.outer with
      | none => simp [ho] at hi
      | some outer =>
        simp only [ho] at h hi
        split at hi
        · rename_i hout
          rw [if_pos hout] at h
          exact ih outer hout h (Nat.lt_trans hout hlt) i hi
        · cases hi

/-- Where an evaluation stood it still stands later on. -/
theorem At.later (h : R.At s env scope) (hl : R.evaluation.Later s t) : R.At t env scope where
  defs := h.defs
  root := h.root
  sees := h.sees
  lt := Nat.lt_of_lt_of_le h.lt hl.1.size
  safe name hname := by
    refine (h.safe name hname).grown hl.1 (fun i hk hb => ?_) h.lt
    rwa [Frames.valueIn?, hl.2 i hk] at hb

/-- What is found from a frame that is seen is seen, too. -/
theorem Tidy.sees_find? (hs : R.Tidy s) (henv : R.Sees env)
    (h : s.frames.find? name env = some id) : R.Sees id := by
  fun_induction Frames.find? s.frames name env with
  | case1 => cases h
  | case2 =>
    cases h
    exact henv
  | case3 env frame hframe _ outer ho hlt ih =>
      exact ih (hs.outward env frame outer henv hframe ho hlt) h
  | case4 => cases h
  | case5 => cases h

theorem not_kept_of_le (h : R.start ≤ id) : ¬R.kept id :=
  fun hk => Nat.not_lt_of_le h (R.kept_lt id hk)

/-! What is safe inside a new frame -/

/-- A name that a new frame binds is found there, so nothing older is reached. -/
theorem safe_of_bound (h : R.start ≤ id) (hb : (fs.valueIn? name id).isSome) :
    R.Safe fs name id := by
  intro i hi
  rw [Frames.find?_of_bound hb] at hi
  cases hi
  exact not_kept_of_le h

/-- A new frame around which a name is safe leaves it so. -/
theorem Safe.inside (h : R.Safe fs name env) (hid : R.start ≤ id) (hframe : fs[id]? = some frame)
    (houter : frame.outer = some env) : R.Safe fs name id := by
  by_cases hb : (fs.valueIn? name id).isSome
  · exact safe_of_bound hid hb
  · rw [Option.isSome_iff_ne_none, not_not] at hb
    intro i hi
    rw [Frames.find?_of_unbound hframe hb, houter] at hi
    dsimp only at hi
    split at hi
    · exact h i hi
    · cases hi

/-- Where an evaluation is inside a new frame that binds `names`. -/
theorem At.inside (h : R.At s env scope) (hid : R.start ≤ id) (hframe : s.frames[id]? = some frame)
    (houter : frame.outer = some env) (hn : ∀ name ∈ names, (s.frames.valueIn? name id).isSome) :
    R.At s id (scope.binding names) where
  defs := h.defs
  root := h.root
  sees := .inr hid
  lt := (Array.getElem?_eq_some_iff.1 hframe).1
  safe name hname := by
    rcases List.mem_append.1 hname with hname | hname
    · exact safe_of_bound hid (hn name hname)
    · exact (h.safe name hname).inside hid hframe houter

/-- One more variable of a new frame may be assigned. -/
theorem At.binding (h : R.At s id scope) (hid : R.start ≤ id)
    (hb : (s.frames.valueIn? name id).isSome) : R.At s id (scope.binding [name]) where
  defs := h.defs
  root := h.root
  sees := h.sees
  lt := h.lt
  safe other hother := by
    rcases List.mem_cons.1 hother with rfl | hother
    · exact safe_of_bound hid hb
    · exact h.safe other hother

theorem At.expandingToo (h : R.At s env scope) (name : String) :
    R.At s env (scope.expandingToo name) :=
  ⟨h.defs, h.root, h.sees, h.lt, h.safe⟩

/-! Operations -/

variable {outer : Option FrameId} {bindings : List (String × Value)}

/-- A new frame holds bare values and is inside of one that may be seen. -/
theorem Tidy.push (hs : R.Tidy s) (hb : ∀ b ∈ bindings, b.2.Bare) (ho : ∀ env ∈ outer, R.Sees env) :
    R.Tidy { s with frames := s.frames.push ⟨.ofList bindings, outer⟩ } := by
  have hnew : ∀ (i : FrameId) (f : Frame), (s.frames.push ⟨.ofList bindings, outer⟩)[i]? = some f →
      s.frames[i]? = some f ∨ f = ⟨.ofList bindings, outer⟩ := by
    intro i f hf
    rw [Array.getElem?_push] at hf
    split at hf
    · exact .inr (Option.some_inj.1 hf).symm
    · exact .inl hf
  refine ⟨?_, fun i f out hsees hf hout hlt => ?_, fun i name v hsees hv => ?_, hs.globals⟩
  · simpa using Nat.le_succ_of_le hs.size
  · rcases hnew i f hf with hf | rfl
    · exact hs.outward i f out hsees hf hout hlt
    · exact ho out hout
  · obtain ⟨f, hf, hv⟩ := Option.bind_eq_some_iff.1 hv
    rcases hnew i f hf with hf | rfl
    · exact hs.values i name v hsees (Option.bind_eq_some_iff.2 ⟨f, hf, hv⟩)
    · exact hb _ (Table.mem_of_get?_ofList hv)

theorem newFrame (hb : ∀ b ∈ bindings, b.2.Bare) (ho : ∀ env ∈ outer, R.Sees env) :
    R.evaluation.Goes w
      (fun t frame => R.start ≤ frame ∧ t.frames[frame]? = some ⟨.ofList bindings, outer⟩)
      (Eval.newFrame outer bindings) := by
  intro s _ hs
  refine ⟨⟨.push _ _, fun i hk => ?_⟩, hs.push hb ho, ?_⟩
  · have hne : i ≠ s.frames.size := Nat.ne_of_lt (Nat.lt_of_lt_of_le (R.kept_lt i hk) hs.size)
    simp only [Eval.newFrame, Array.getElem?_push, if_neg hne]
  · rintro _ ⟨⟩
    exact ⟨hs.size, Array.getElem?_push_size⟩

/-- Bare values may be put anywhere. -/
theorem Tidy.define (hs : R.Tidy s) (hv : v.Bare) (id : FrameId) (name : String) :
    R.Tidy { s with frames := s.frames.define id name v } where
  size := by simpa using hs.size
  outward i f outer hsees hf hout hlt := by
    by_cases hi : i = id
    · subst hi
      rw [Frames.getElem?_define_self] at hf
      obtain ⟨g, hg, rfl⟩ := Option.map_eq_some_iff.1 hf
      exact hs.outward i g outer hsees hg hout hlt
    · rw [Frames.getElem?_define_of_ne hi] at hf
      exact hs.outward i f outer hsees hf hout hlt
  values i other x hsees hx := by
    by_cases hid : id < s.frames.size
    · rw [Frames.valueIn?_define hid] at hx
      split at hx
      · cases hx
        exact hv
      · exact hs.values i other x hsees hx
    · rw [Frames.define_of_size_le (Nat.le_of_not_lt hid)] at hx
      exact hs.values i other x hsees hx
  globals := hs.globals

theorem define (hid : ¬R.kept id) (hv : v.Bare) :
    R.evaluation.Goes w (fun t _ => id < t.frames.size → (t.frames.valueIn? name id).isSome)
      (Eval.define id name v) := by
  intro s _ hs
  refine ⟨⟨.define _ _ _ _, fun i hk => ?_⟩, hs.define hv id name, fun _ _ hlt => ?_⟩
  · exact Frames.getElem?_define_of_ne fun hi => hid (hi ▸ hk)
  · rw [Eval.define, Frames.size_define] at hlt
    simp only [Eval.define, Frames.valueIn?_define hlt, and_self, if_true, Option.isSome_some]

/-- What can be seen is bare. -/
theorem lookup (h : R.Sees env) :
    R.evaluation.Goes w (fun _ o => ∀ v ∈ o, v.Bare) (Eval.lookup? name env) := by
  refine .still fun s _ hs => ⟨rfl, ?_⟩
  rintro _ ⟨⟩ v hv
  obtain ⟨owner, hfind, hv⟩ := Option.bind_eq_some_iff.1 hv
  exact hs.values owner name v (hs.sees_find? h hfind) hv

/-- A variable that may be assigned in place is that of a frame that is not kept. -/
theorem assign (h : R.At w env scope) (hv : v.Bare) :
    R.evaluation.Does w (Evaluation.assign name v env scope) := by
  have hroot : ∀ {u x}, Value.Bare x → R.evaluation.Does u (Eval.define scope.root name x) :=
    fun hx => .mono (define h.root hx) fun _ _ _ _ => trivial
  refine .ite (fun hname => ?_) fun _ => .ite (fun _ => hroot hv) fun _ => hroot Value.bare_unknown
  refine .bind (Q := fun _ _ => True) ?_ fun t found _ _ => .ite (fun _ => .done) fun _ => hroot hv
  intro s hw hs
  have hsafe := (h.later hw).safe name hname
  unfold Eval.set
  split
  · rename_i owner hfind
    have hdone : R.evaluation.Goes s _ (Eval.define owner name v) := define (hsafe owner hfind) hv
    have hdone := hdone s (R.evaluation.refl s) hs
    exact ⟨hdone.1, hdone.2.1, fun _ _ => trivial⟩
  · exact ⟨R.evaluation.refl s, hs, fun _ _ => trivial⟩

theorem global : R.evaluation.Goes w (fun _ o => ∀ g ∈ o, g.Bare) (Eval.global? name) := by
  refine .still fun s _ hs => ⟨rfl, ?_⟩
  rintro _ ⟨⟩ g hg
  exact hs.globals name g hg

theorem Tidy.putGlobal {g : Global} (hs : R.Tidy s) (hg : g.Bare) (name : String) :
    R.Tidy { s with globals := s.globals.put name g } := by
  refine ⟨hs.size, hs.outward, hs.values, fun other x hx => ?_⟩
  rw [Table.get?_put] at hx
  split at hx
  · cases hx
    exact hg
  · exact hs.globals other x hx

theorem putGlobal {g : Global} (hg : g.Bare) : R.evaluation.Does w (Eval.putGlobal name g) :=
  fun _ _ hs => ⟨⟨.refl _, fun _ _ => rfl⟩, hs.putGlobal hg name, fun _ _ => trivial⟩

end Region

end PatternLint
