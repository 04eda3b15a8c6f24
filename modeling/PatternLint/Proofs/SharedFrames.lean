import PatternLint.Proofs.FrameRules

/-! Frames that are shared. A frame lies inside one that was there when it was made, so that frames
form trees, and what is seen from a frame is seen from all those that lie inside of it. An
assignment through a frame is seen exactly from where the same binding is the nearest one, and a
definition in a frame exactly from where that frame comes before all others that bind the name. -/

namespace PatternLint

namespace Frames

/-! ### Forests -/

/-- What an operation makes of some frames. An assignment to a name that is
unbound changes nothing. -/
inductive Step (fs : Frames) : Frames → Prop
  | create {outer : Option FrameId} (h : ∀ o ∈ outer, o < fs.size) :
      Step fs (fs.push ⟨.empty, outer⟩)
  | extend {outer : Option FrameId} (h : ∀ o ∈ outer, o < fs.size)
      (bindings : List (String × Value)) :
    Step fs (fs.push ⟨.ofList bindings, outer⟩)
  | define {id : FrameId} (h : id < fs.size) (name : String) (v : Value) :
    Step fs (fs.define id name v)
  | set {id : FrameId} (h : id < fs.size) (name : String) (v : Value) :
    Step fs ((fs.set? id name v).getD fs)

/-- Frames that are made by some sequence of operations. -/
inductive Built : Frames → Prop
  | empty : Built #[]
  | step {fs gs : Frames} (h : Built fs) (hs : Step fs gs) : Built gs

/-- What a frame lies inside of. -/
def outer? (fs : Frames) (g : FrameId) : Option FrameId :=
  fs[g]?.bind Frame.outer

/-- All frames lie inside ones that were made before. -/
def Layered (fs : Frames) : Prop :=
  ∀ g o, fs.outer? g = some o → o < g

variable {fs gs : Frames} {f g o id owner : FrameId} {frame : Frame}
  {name other : String} {v : Value}

theorem outer?_define : (fs.define id name v).outer? g = fs.outer? g := by
  unfold outer?
  by_cases hg : g = id
  · subst hg
    rw [getElem?_define_self]
    cases fs[g]? <;> rfl
  · rw [getElem?_define_of_ne hg]

theorem Layered.define (h : fs.Layered) (id : FrameId) (name : String) (v : Value) :
    (fs.define id name v).Layered :=
  fun g o ho => h g o (outer?_define.symm.trans ho)

theorem Layered.push (h : fs.Layered) (ho : ∀ o ∈ frame.outer, o < fs.size) :
    Layered (fs.push frame) := by
  intro g o hout
  rw [outer?, Array.getElem?_push] at hout
  split at hout
  · rename_i hg
    exact hg ▸ ho o hout
  · exact h g o hout

theorem Layered.step (h : fs.Layered) (hs : Step fs gs) : gs.Layered := by
  cases hs with
  | create ho => exact h.push ho
  | extend ho => exact h.push ho
  | define _ name v => exact h.define _ name v
  | set _ name v =>
    rw [set?]
    cases fs.find? name _ with
    | none => exact h
    | some owner => exact h.define owner name v

theorem Built.layered (h : fs.Built) : fs.Layered := by
  induction h with
  | empty => exact fun _ _ => nofun
  | step _ hs ih => exact ih.step hs

/-! ### The nearest binding -/

/-- Outwards from `g`, the frame `f` comes before all other frames that bind a name. -/
inductive Reached (fs : Frames) (name : String) (f : FrameId) : FrameId → Prop
  | here : Reached fs name f f
  | outward {g o : FrameId} (hout : fs.outer? g = some o) (hfree : fs.valueIn? name g = none)
    (h : Reached fs name f o) : Reached fs name f g

/-- Outwards from `g`, the frame `f` is the first that binds a name. -/
def Nearest (fs : Frames) (name : String) (f g : FrameId) : Prop :=
  fs.Reached name f g ∧ (fs.valueIn? name f).isSome

theorem nearest_of_find? (h : fs.find? name g = some owner) : fs.Nearest name owner g := by
  refine ⟨?_, bound_of_find? h⟩
  fun_induction find? fs name g with
  | case1 => cases h
  | case2 =>
    cases h
    exact .here
  | case3 g frame hframe hfree o ho _ ih =>
    refine .outward ?_ ?_ (ih h)
    · rw [outer?, hframe, Option.bind_some, ho]
    · rw [valueIn?, hframe, Option.bind_some]
      simpa [Table.contains] using hfree
  | case4 => cases h
  | case5 => cases h

theorem find?_of_free (h : fs.Layered) (hfree : fs.valueIn? name g = none) :
    fs.find? name g = (fs.outer? g).bind (fs.find? name) := by
  cases hframe : fs[g]? with
  | none => rw [find?, outer?, hframe, Option.bind_none, Option.bind_none]
  | some frame =>
    have houter : fs.outer? g = frame.outer := by rw [outer?, hframe, Option.bind_some]
    have hinside : fs.Inside g frame.outer :=
      ⟨by rw [hframe, Option.map_some], fun o ho => h g o (houter.trans ho)⟩
    rw [hinside.find? hfree, houter]

/-- The search for a binding follows all links. -/
theorem find?_eq_some_iff (h : fs.Layered) :
    fs.find? name g = some owner ↔ fs.Nearest name owner g := by
  refine ⟨nearest_of_find?, fun hnearest => ?_⟩
  obtain ⟨hreached, hbound⟩ := hnearest
  induction hreached with
  | here => exact find?_of_bound hbound
  | outward hout hfree _ ih => rw [find?_of_free h hfree, hout, Option.bind_some, ih]

theorem find?_eq_none_iff (h : fs.Layered) :
    fs.find? name g = none ↔ ¬∃ owner, fs.Nearest name owner g := by
  rw [Option.eq_none_iff_forall_ne_some]
  simp only [ne_eq, find?_eq_some_iff h, not_exists]

/-! ### Changes -/

/-- From the frames in `seen` a name has the value `v` now, and all other lookups
through frames are as before. -/
structure Changed (fs gs : Frames) (name : String) (v : Value) (seen : FrameId → Prop) : Prop where
  through : ∀ g, seen g → gs.lookup? name g = some v
  elsewhere : ∀ other g, ¬(other = name ∧ seen g) → gs.lookup? other g = fs.lookup? other g

theorem Reached.define (hf : f < fs.size) (h : fs.Reached name f g) :
    (fs.define f name v).Reached name f g := by
  induction h with
  | here => exact .here
  | @outward g o hout hfree _ ih =>
    by_cases hg : g = f
    · exact hg ▸ .here
    · refine .outward (outer?_define.trans hout) ?_ ih
      rw [valueIn?_define hf, if_neg fun h => hg h.1]
      exact hfree

/-- Unless the definition is the first binding on the way, a name is found in
the same frame as before. -/
theorem find?_define_of_not (h : fs.Layered) (hf : f < fs.size)
    (hnot : ¬(other = name ∧ fs.Reached name f g)) :
    (fs.define f name v).find? other g = fs.find? other g := by
  induction g using Nat.strongRecOn with
  | _ g ih =>
    have hvalue : (fs.define f name v).valueIn? other g = fs.valueIn? other g := by
      rw [valueIn?_define hf, if_neg]
      rintro ⟨rfl, rfl⟩
      exact hnot ⟨rfl, .here⟩
    cases hb : fs.valueIn? other g with
    | some u => rw [find?_of_bound (by rw [hvalue, hb]; rfl), find?_of_bound (by rw [hb]; rfl)]
    | none =>
      rw [find?_of_free (h.define f name v) (hvalue.trans hb), find?_of_free h hb, outer?_define]
      cases hout : fs.outer? g with
      | none => rfl
      | some o =>
        exact ih o (h g o hout) fun ⟨hname, hr⟩ => hnot ⟨hname, .outward hout (hname ▸ hb) hr⟩

theorem define_changed (h : fs.Layered) (hf : f < fs.size) (name : String) (v : Value) :
    fs.Changed (fs.define f name v) name v (fs.Reached name f) where
  through g hg := by
    have hself : (fs.define f name v).valueIn? name f = some v := by
      rw [valueIn?_define hf, if_pos ⟨rfl, rfl⟩]
    have hfind : (fs.define f name v).find? name g = some f :=
      (find?_eq_some_iff (h.define f name v)).2 ⟨hg.define hf, by rw [hself]; rfl⟩
    rw [lookup?, hfind, Option.bind_some, hself]
  elsewhere other g hg := by
    rw [lookup?, find?_define_of_not h hf hg, lookup?]
    cases hfind : fs.find? other g with
    | none => rfl
    | some owner =>
      refine (valueIn?_define hf).trans (if_neg ?_)
      rintro ⟨rfl, rfl⟩
      exact hg ⟨rfl, (nearest_of_find? hfind).1⟩

/-- An assignment is a definition in the frame of the nearest binding, which is the nearest one from
where that frame is reached. -/
theorem assignment_changed (h : fs.Layered) (howner : fs.Nearest name owner f) (v : Value) :
    fs.Changed (fs.define owner name v) name v (fs.Nearest name owner) := by
  have hdefine := define_changed h (lt_of_bound howner.2) name v
  exact ⟨fun g hg => hdefine.through g hg.1, fun other g hg =>
    hdefine.elsewhere other g fun hr => hg ⟨hr.1, hr.2, howner.2⟩⟩

theorem set?_of_nearest (h : fs.Layered) (howner : fs.Nearest name owner f) (v : Value) :
    fs.set? f name v = some (fs.define owner name v) := by
  rw [set?, (find?_eq_some_iff h).2 howner, Option.map_some]

theorem set?_eq_none_iff (h : fs.Layered) (v : Value) :
    fs.set? f name v = none ↔ ¬∃ owner, fs.Nearest name owner f := by
  rw [set?, Option.map_eq_none_iff, find?_eq_none_iff h]

/-- An evaluation assigns in its frames, and is told whether there was a binding. -/
theorem set_eq (f : FrameId) (name : String) (v : Value) (s : Store) :
    Eval.set f name v s = (.ok (s.frames.set? f name v).isSome,
      { s with frames := (s.frames.set? f name v).getD s.frames }) := by
  rw [Eval.set, set?]
  cases s.frames.find? name f <;> rfl

/-- In all forests: an assignment through a frame is seen from exactly those frames from which
the nearest binding is the same; it fails, and changes nothing, if and only if there is no
binding. A definition in a frame is seen from exactly those from which that frame comes before
all others that bind the name. -/
theorem assignments_shared (s : Store) (h : s.frames.Built) (f : FrameId) (hf : f < s.frames.size)
    (name : String) (v : Value) :
    (∀ owner, s.frames.Nearest name owner f →
      ∃ t, Eval.set f name v s = (.ok true, t) ∧ t.frames.Built ∧
        s.frames.Changed t.frames name v (s.frames.Nearest name owner)) ∧
    (Eval.set f name v s = (.ok false, s) ↔ ¬∃ owner, s.frames.Nearest name owner f) ∧
    ∃ t, Eval.define f name v s = (.ok (), t) ∧ t.frames.Built ∧
      s.frames.Changed t.frames name v (s.frames.Reached name f) := by
  have hlayered := h.layered
  refine ⟨fun owner howner => ?_, ⟨fun hfail => ?_, fun hnone => ?_⟩,
    _, rfl, h.step (.define hf name v), define_changed hlayered hf name v⟩
  · have hset := set?_of_nearest hlayered howner v
    have hbuilt := h.step (.set hf name v)
    rw [hset] at hbuilt
    refine ⟨{ s with frames := s.frames.define owner name v }, ?_, hbuilt,
      assignment_changed hlayered howner v⟩
    rw [set_eq, hset, Option.isSome_some, Option.getD_some]
  · rw [set_eq, Prod.mk.injEq, Except.ok.injEq, Option.isSome_eq_false_iff,
      Option.isNone_iff_eq_none] at hfail
    exact (set?_eq_none_iff hlayered v).1 hfail.1
  · rw [set_eq, (set?_eq_none_iff hlayered v).2 hnone, Option.isSome_none, Option.getD_none]

/-- Two frames inside the outermost one, which binds `x` and `y`. One of them binds another `x`, and
the other has a frame inside of it. -/
def siblings : Frames :=
  let outermost : Frames := .push #[] ⟨.ofList [("x", .int 1), ("y", .int 2)], none⟩
  ((outermost.push ⟨.empty, some 0⟩).push ⟨.ofList [("x", .int 3)], some 0⟩).push ⟨.empty, some 1⟩

theorem siblings_built : siblings.Built := by
  refine .step (.step (.step (.step .empty (.extend ?_ _)) (.create ?_)) (.extend ?_ _))
    (.create ?_)
  all_goals simp

/-- From the innermost frame of `siblings`, an assignment to `x` is seen from the frame around it
and not from the other one inside of the outermost, and there is no `z` to assign. A definition of
`y` in the frame around it is seen from the innermost and not from the other one. -/
theorem siblings_share :
    let s : Store := ⟨siblings, 0, .empty⟩
    siblings.Built ∧
      (∃ t, Eval.set 3 "x" (.int 5) s = (.ok true, t) ∧ t.frames.lookup? "x" 1 = some (.int 5) ∧
        t.frames.lookup? "x" 2 = siblings.lookup? "x" 2 ∧
        t.frames.lookup? "y" 3 = siblings.lookup? "y" 3) ∧
      Eval.set 3 "z" (.int 5) s = (.ok false, s) ∧
      ∃ t, Eval.define 1 "y" (.int 6) s = (.ok (), t) ∧ t.frames.lookup? "y" 3 = some (.int 6) ∧
        t.frames.lookup? "y" 2 = siblings.lookup? "y" 2 := by
  intro s
  have hlayered := siblings_built.layered
  have nearest (name : String) (g owner : FrameId) (h : siblings.find? name g = some owner) :=
    (find?_eq_some_iff hlayered).1 h
  obtain ⟨hset, -, -⟩ := assignments_shared s siblings_built 3 (by decide) "x" (.int 5)
  obtain ⟨-, hunbound, -⟩ := assignments_shared s siblings_built 3 (by decide) "z" (.int 5)
  obtain ⟨-, -, t, hdefine, -, hseen⟩ := assignments_shared s siblings_built 1
    (by decide) "y" (.int 6)
  obtain ⟨u, hrun, -, hshared⟩ := hset 0 (nearest "x" 3 0 (by decide +kernel))
  refine ⟨siblings_built, ⟨u, hrun, hshared.through 1 (nearest "x" 1 0 (by decide +kernel)),
    hshared.elsewhere "x" 2 ?_, hshared.elsewhere "y" 3 ?_⟩, hunbound.2 ?_, t, hdefine,
    hseen.through 3 ?_, hseen.elsewhere "y" 2 ?_⟩
  · rintro ⟨-, hx⟩
    exact absurd ((find?_eq_some_iff hlayered).2 hx) (by decide +kernel)
  · exact fun h => absurd h.1 (by decide)
  · exact (find?_eq_none_iff hlayered).1 (by decide +kernel)
  · exact .outward rfl rfl .here
  · rintro ⟨-, hy⟩
    rcases hy with _ | ⟨hout, -, hy⟩
    cases hout
    rcases hy with _ | ⟨hout, -, -⟩
    cases hout

end Frames

end PatternLint
