import PatternLint.Proofs.FrameEval
import PatternLint.Proofs.ReportAccounting
import PatternLint.Proofs.WalkRules

/-! Variables that may not be assigned at some place. A walk from there gives them no new value:
they keep their values, or become unknown. -/

namespace PatternLint

/-- The same names are bound; those that are not in `mutables` keep their
values, or become unknown. -/
structure Table.Fixed (mutables : List String) (before after : Table Value) : Prop where
  names : after.names = before.names
  values : ∀ name ∉ mutables, after.get? name = before.get? name ∨ after.get? name = some .unknown

theorem Table.isSome_get? {α : Type} {T : Table α} {name : String} :
    (T.get? name).isSome ↔ name ∈ T.names := by
  simp only [Table.get?, List.lookup_isSome_iff, Table.names, List.mem_map, beq_iff_eq]
  exact exists_congr fun e => and_congr_right fun _ => eq_comm

namespace Table.Fixed

variable {mutables : List String} {T U V : Table Value} {name : String} {v : Value}

theorem refl (mutables : List String) (T : Table Value) : T.Fixed mutables T :=
  ⟨rfl, fun _ _ => .inl rfl⟩

theorem trans (h : T.Fixed mutables U) (h' : U.Fixed mutables V) : T.Fixed mutables V := by
  refine ⟨h'.names.trans h.names, fun name hname => ?_⟩
  rcases h'.values name hname with heq | hunknown
  · rw [heq]
    exact h.values name hname
  · exact .inr hunknown

theorem put (hname : (T.get? name).isSome) (hv : name ∉ mutables → v = .unknown) :
    T.Fixed mutables (T.put name v) := by
  refine ⟨Table.names_put_of_mem (Table.isSome_get?.1 hname), fun other hother => ?_⟩
  rw [Table.get?_put]
  split
  · rename_i heq
    rw [hv (heq ▸ hother)]
    exact .inr rfl
  · exact .inl rfl

theorem isSome (h : T.Fixed mutables U) : (U.get? name).isSome ↔ (T.get? name).isSome := by
  rw [Table.isSome_get?, Table.isSome_get?, h.names]

end Table.Fixed

namespace Frames

variable {fs gs : Frames} {env id i outer : FrameId} {frame : Frame} {name : String} {v : Value}

theorem valueIn?_eq : fs.valueIn? name id = (fs.varsOf id).get? name := by
  rw [valueIn?, varsOf]
  cases fs[id]? <;> rfl

theorem varsOf_define_self (h : id < fs.size) :
    (fs.define id name v).varsOf id = (fs.varsOf id).put name v := by
  rw [varsOf, varsOf, getElem?_define_self, Array.getElem?_eq_getElem h]
  rfl

/-- The frames from `env` outwards. -/
inductive Around (fs : Frames) : FrameId → FrameId → Prop where
  | here {env : FrameId} (h : env < fs.size) : Around fs env env
  | out {env outer id : FrameId} {frame : Frame} (h : fs[env]? = some frame)
      (ho : frame.outer = some outer) (hlt : outer < env) (hid : Around fs outer id) :
        Around fs env id

namespace Around

theorem lt (h : fs.Around env id) : id < fs.size := by
  induction h with
  | here h => exact h
  | out _ _ _ _ ih => exact ih

theorem outward (h : fs.Around env id) (hframe : fs[id]? = some frame)
    (ho : frame.outer = some outer) (hlt : outer < id) : fs.Around env outer := by
  induction h with
  | here h => exact .out hframe ho hlt (.here (Nat.lt_trans hlt h))
  | out h ho' hlt' _ ih => exact .out h ho' hlt' (ih hframe hlt)

theorem mem_chain (h : fs.Around env id) : fs.varsOf id ∈ fs.chain env := by
  induction h with
  | here h =>
    rw [chain, varsOf, Array.getElem?_eq_getElem h]
    exact List.mem_cons_self
  | out h ho hlt _ ih =>
    rw [chain, h]
    simp only [ho, if_pos hlt]
    exact List.mem_cons_of_mem _ ih

end Around

/-- What holds frame by frame holds along the chain. -/
theorem Grown.chain {A : Table Value → Table Value → Prop} (h : fs.Grown gs) (hlt : env < fs.size)
    (hA : ∀ i, fs.Around env i → A (fs.varsOf i) (gs.varsOf i)) :
    List.Forall₂ A (fs.chain env) (gs.chain env) := by
  induction env using Nat.strongRecOn with
  | _ env ih =>
    have hhere := hA env (.here hlt)
    obtain ⟨f, hf⟩ : ∃ f, fs[env]? = some f := ⟨_, Array.getElem?_eq_getElem hlt⟩
    obtain ⟨g, hg⟩ : ∃ g, gs[env]? = some g :=
      ⟨_, Array.getElem?_eq_getElem (Nat.lt_of_lt_of_le hlt h.size)⟩
    have houter : g.outer = f.outer := by
      have := h.outer env hlt
      rwa [hf, hg, Option.map_some, Option.map_some, Option.some_inj] at this
    simp only [varsOf, hf, hg] at hhere
    rw [Frames.chain, Frames.chain, hf, hg]
    refine .cons hhere ?_
    rw [houter]
    cases ho : f.outer with
    | none => exact .nil
    | some outer =>
      dsimp only
      split
      · rename_i hout
        exact ih outer hout (Nat.lt_trans hout hlt) fun i hi => hA i (.out hf ho hout hi)
      · exact .nil

end Frames

namespace Region

/-- The frames around a place of a walk. -/
def around (fs : Frames) (env : FrameId) : Region where
  kept := fs.Around env
  start := fs.size
  kept_lt _ := Frames.Around.lt

theorem tidy_around {s : Store} {env : FrameId}
    (hvars : ∀ vars ∈ s.frames.chain env, ∀ name v, vars.get? name = some v → v.Bare)
    (hglobals : ∀ name g, s.globals.get? name = some g → g.Bare) :
    (around s.frames env).Tidy s where
  size := Nat.le_refl _
  outward i frame outer hsees hframe ho hlt := by
    have hi := (Array.getElem?_eq_some_iff.1 hframe).1
    exact .inl ((hsees.resolve_right (Nat.not_le_of_lt hi)).outward hframe ho hlt)
  values i name v hsees hv := by
    obtain ⟨frame, hframe, -⟩ := Option.bind_eq_some_iff.1 hv
    have hi := (Array.getElem?_eq_some_iff.1 hframe).1
    rw [Frames.valueIn?_eq] at hv
    exact hvars _ (hsees.resolve_right (Nat.not_le_of_lt hi)).mem_chain name v hv
  globals := hglobals

end Region

namespace Analysis

variable {R : Region} {names : List String} {defs : Definitions} {doc : Document} {w : Findings}

/-- Walks that give no new values to the variables of kept frames, but for those in
`names`. A variable that may be assigned somewhere is one of those, or that of a frame
that the walk has made. -/
def fixing (R : Region) (names : List String) (defs : Definitions) : WalkRules where
  Fine f := R.Tidy f.store ∧ f.defs = defs
  Later f g := f.store.frames.Grown g.store.frames ∧
    ∀ i, R.kept i → (f.store.frames.varsOf i).Fixed names (g.store.frames.varsOf i)
  refl _ := ⟨.refl _, fun _ _ => .refl _ _⟩
  trans h h' := ⟨h.1.trans h'.1, fun i hi => (h.2 i hi).trans (h'.2 i hi)⟩
  Stands f env mutables := R.Sees env ∧ env < f.store.frames.size ∧
    ∀ name ∈ mutables, name ∈ names ∨ R.Safe f.store.frames name env
  Own _ frame := R.start ≤ frame
  Code := Value.Bare
  Result := Value.Bare

theorem fixing_run {α : Type} {m : Definitions → Eval α} {Q : Store → α → Prop}
    (h : ∀ s, (fixing R names defs).Later w s → R.evaluation.Goes s.store Q (m defs)) :
    (fixing R names defs).Goes w (fun t => Q t.store) (Analyze.run m) := by
  rintro s hw ⟨hs, rfl⟩
  obtain ⟨hlater, ht, hQ⟩ := h s hw s.store (R.evaluation.refl _) hs
  refine ⟨⟨hlater.1, fun i hi => ?_⟩, ⟨ht, rfl⟩, hQ⟩
  have hsame : Frames.varsOf (m s.defs s.store).2.frames i = s.store.frames.varsOf i := by
    rw [Frames.varsOf, Frames.varsOf, hlater.2 i hi]
  rw [Analyze.run_apply, hsame]
  exact .refl _ _

theorem fixing_still {α : Type} {m : Analyze α}
    (h : ∀ s, (m s).2.store = s.store ∧ (m s).2.defs = s.defs) :
    (fixing R names defs).Does w m := by
  intro s _ hs
  obtain ⟨hstore, hdefs⟩ := h s
  refine ⟨?_, ?_, fun _ _ => trivial⟩
  · have := (fixing R names defs).refl s
    simpa only [fixing, hstore] using this
  · simpa only [fixing, hstore, hdefs] using hs

/-- Where variables may be assigned, they may be so later on. -/
theorem fixing_later {f g : Findings} {env : FrameId} {mutables : List String}
    (h : (fixing R names defs).Stands f env mutables) (hl : (fixing R names defs).Later f g) :
    (fixing R names defs).Stands g env mutables := by
  refine ⟨h.1, Nat.lt_of_lt_of_le h.2.1 hl.1.size, fun name hname =>
    (h.2.2 name hname).imp_right ?_⟩
  refine fun hsafe => hsafe.grown hl.1 (fun i hi hb => ?_) h.2.1
  rw [Frames.valueIn?_eq] at hb ⊢
  exact (hl.2 i hi).isSome.1 hb

theorem fixing_newFrame {env : FrameId} {mutables : List String} (bound : List String)
    (h : (fixing R names defs).Stands w env mutables) :
    (fixing R names defs).Goes w (fun t frame => R.start ≤ frame ∧
        (fixing R names defs).Stands t frame (bound ++ mutables))
      (newFrame (some env) (bound.map (·, .unknown))) := by
  refine .mono (fixing_run fun s _ => Region.newFrame (fun b hb => ?_) ?_)
    fun t frame ht hframe => ?_
  · obtain ⟨name, -, rfl⟩ := List.mem_map.1 hb
    exact Value.bare_unknown
  · rintro _ ⟨⟩
    exact h.1
  · have h := fixing_later h ht
    refine ⟨hframe.1, .inr hframe.1, (Array.getElem?_eq_some_iff.1 hframe.2).1,
      fun name hname => ?_⟩
    rcases List.mem_append.1 hname with hname | hname
    · refine .inr (Region.safe_of_bound hframe.1 (Region.isSome_valueIn?_ofList hframe.2 ?_))
      rw [List.map_map]
      exact List.mem_map.2 ⟨name, hname, rfl⟩
    · exact (h.2.2 name hname).imp_right fun hsafe => hsafe.inside hframe.1 hframe.2 rfl

theorem fixing_define {frame : FrameId} {mutables : List String} {name : String} {v : Value}
    (hown : R.start ≤ frame) (h : (fixing R names defs).Stands w frame mutables) (hv : v.Bare) :
    (fixing R names defs).Goes w
    (fun t _ => (fixing R names defs).Stands t frame (name :: mutables))
      (Analyze.run fun _ => Eval.define frame name v) := by
  have hfree := Region.not_kept_of_le hown
  refine .mono (fixing_run fun s _ => Region.define hfree hv) fun t _ ht hb => ?_
  have h := fixing_later h ht
  refine ⟨h.1, h.2.1, fun other hother => ?_⟩
  rcases List.mem_cons.1 hother with rfl | hother
  · exact .inr (Region.safe_of_bound hown (hb h.2.1))
  · exact h.2.2 other hother

/-- The nearest variable of the name is changed. If it is that of a kept frame, it is one of
`names`, or becomes unknown. -/
theorem fixing_set {p : Place} {name : String} {v : Value} (h : (fixing R names defs).StandsAt w p)
    (hv : v.Bare) (hfixed : name ∉ p.mutables → v = .unknown) :
    (fixing R names defs).Does w (Analyze.run fun _ => Eval.set p.env name v) := by
  intro s hw hs
  rw [Analyze.run_apply, Eval.set]
  cases hfind : s.store.frames.find? name p.env with
  | none => exact ⟨(fixing R names defs).refl s, hs, fun _ _ => trivial⟩
  | some owner =>
    refine ⟨⟨.define _ _ _ _, fun i hi => ?_⟩, ⟨hs.1.define hv owner name, hs.2⟩,
      fun _ _ => trivial⟩
    by_cases howner : i = owner
    · subst howner
      have hbound := Frames.bound_of_find? hfind
      dsimp only
      rw [Frames.varsOf_define_self (Frames.lt_of_bound hbound)]
      refine .put (Frames.valueIn?_eq ▸ hbound) fun hname => hfixed fun hmutable => ?_
      exact ((fixing_later h hw).2.2 name hmutable).elim hname fun hsafe => hsafe i hfind hi
    · have hsame : (s.store.frames.define owner name v).varsOf i = s.store.frames.varsOf i := by
        rw [Frames.varsOf, Frames.varsOf, Frames.getElem?_define_of_ne howner]
      dsimp only
      rw [hsame]
      exact .refl _ _

theorem fixing_global {name : String} {expr : Value} (hdefs : defs.Bare) (hexpr : expr.Bare) :
    (fixing R names defs).Does w (defineGlobal doc name expr) := by
  have hput : ∀ t (g : Global), g.Bare →
      (fixing R names defs).Does t (Analyze.run fun _ => Eval.putGlobal name g) :=
    fun t g hg => fixing_run (Q := fun _ _ => True) fun s _ => Region.putGlobal hg
  refine .bind WalkRules.Lawful.findings fun t s _ _ => .ite (fun _ => ?_) fun _ => hput t _ hexpr
  refine .bind (fixing_run (Q := fun _ => Value.Bare) fun s _ =>
    Region.gives_evaluate hexpr hdefs ?_ _ _) fun u v _ hv => hput u _ hv
  rintro _ ⟨⟩

theorem fixing_lawful (hdefs : defs.Bare) : (fixing R names defs).Lawful doc where
  stands_later := fixing_later
  stands_mono h hsub := ⟨h.1, h.2.1, fun name hname => h.2.2 name (hsub hname)⟩
  own_later h _ := h
  code_nil := Value.bare_nil
  code_list := Value.bare_list.1
  code_dotted h := by
    obtain ⟨hitems, htail⟩ := Value.bare_dotted.1 h
    exact fun v hv => (List.mem_append.1 hv).elim (hitems v) fun hv =>
      List.mem_singleton.1 hv ▸ htail
  code_cdr h := Value.bare_list.2 (by simpa using Value.bare_sym.1 h)
  result_unknown := Value.bare_unknown
  site _ _ := .done
  report w message _ offset path index := by
    refine fixing_still (m := Analysis.report doc message offset path index) fun s => ?_
    rw [report_apply]
    split <;> exact ⟨rfl, rfl⟩
  value hexpr h := by
    refine fixing_run (Q := fun _ => Value.Bare) fun s _ => Region.gives_evaluate hexpr hdefs ?_ _ _
    rintro _ ⟨⟩
    exact h.1
  structural hexpr h := by
    refine .mono (fixing_run (Q := fun _ => Value.Bare) fun s _ =>
      Region.gives_evaluateList hexpr hdefs ?_ _ _) fun _ _ _ _ => trivial
    rintro _ ⟨⟩
    exact h.1
  newFrame := fixing_newFrame
  define := fixing_define
  set := fixing_set
  global := fixing_global hdefs
  checked w name shape := fixing_still fun s => ⟨rfl, rfl⟩

/-- No name that may not be assigned gains a value. Where neither the form nor the definitions, the
global variables and the variables around the place hold a function, a visit binds no other names in
the frames around, and each variable that is not one of the mutable ones keeps its value or becomes
unknown, however the visit ends. -/
theorem visit_fixed (doc : Document) (depth calls : Nat) (form : Value) (p : Place) (f : Findings)
    (hform : form.Bare) (hdefs : f.defs.Bare)
    (hglobals : ∀ name g, f.store.globals.get? name = some g → g.Bare)
    (hvars : ∀ vars ∈ f.store.frames.chain p.env, ∀ name v, vars.get? name = some v → v.Bare)
    (henv : p.env < f.store.frames.size) :
    List.Forall₂ (Table.Fixed p.mutables) (f.store.frames.chain p.env)
      ((visit doc depth calls form p f).2.store.frames.chain p.env) := by
  let R := Region.around f.store.frames p.env
  let L := fixing R p.mutables f.defs
  have hfine : L.Fine f := ⟨Region.tidy_around hvars hglobals, rfl⟩
  have hstands : L.StandsAt f p := ⟨.inl (.here henv), henv, fun _ => .inl⟩
  have hlawful : L.Lawful doc := fixing_lawful hdefs
  obtain ⟨⟨hgrown, hfixed⟩, -, -⟩ :=
    hlawful.visits depth calls f form p hform hstands f (L.refl f) hfine
  exact hgrown.chain henv hfixed

/-- Two variables are around, `x` with the value 1 and `y` with the value 2. -/
def aroundTwo : Findings :=
  { Findings.empty with store := ⟨#[⟨⟨[("x", .int 1), ("y", .int 2)]⟩, none⟩], 0, .empty⟩ }

/-- The form `(let ((y 3)) (setq y 4 x 5))`. -/
def shadowingAssignment : Value :=
  .list [.sym "let", .list [.list [.sym "y", .int 3]],
    .list [.sym "setq", .sym "y", .int 4, .sym "x", .int 5]]

/-- What a walk through this form finds where `y` may be assigned. -/
def afterShadowing : Findings :=
  (visit ⟨"a.el", [], fun _ => .ok [], fun _ => .ok [], 10⟩ maxDepth 0 shadowingAssignment
    ⟨0, [], 0, ["y"]⟩ aroundTwo).2

theorem visit_fixed_shadowed :
    shadowingAssignment.Bare ∧
      List.Forall₂ (Table.Fixed ["y"]) (aroundTwo.store.frames.chain 0)
        (afterShadowing.store.frames.chain 0) ∧
      (afterShadowing.store.frames.valueIn? "x" 0).any Value.isUnknown = true ∧
      afterShadowing.store.frames.holdsInt "y" 0 2 = true := by
  have hform : shadowingAssignment.Bare := by
    simp [shadowingAssignment]
  have hchain : aroundTwo.store.frames.chain 0 = [⟨[("x", .int 1), ("y", .int 2)]⟩] := by
    rw [Frames.chain]
    rfl
  have hvars : ∀ vars ∈ aroundTwo.store.frames.chain 0, ∀ name v,
      vars.get? name = some v → v.Bare := by
    rw [hchain]
    refine List.forall_mem_singleton.2 fun name v hv => ?_
    have hmem := Table.mem_of_get? hv
    simp only [List.mem_cons, Prod.mk.injEq, List.not_mem_nil, or_false] at hmem
    rcases hmem with ⟨-, rfl⟩ | ⟨-, rfl⟩ <;> exact Value.bare_int
  refine ⟨hform, ?_, by decide +kernel, by decide +kernel⟩
  exact visit_fixed _ _ _ _ ⟨0, [], 0, ["y"]⟩ aroundTwo hform ⟨nofun, nofun,
    nofun⟩ nofun hvars (by decide)

end Analysis

end PatternLint
