import PatternLint.Proofs.CautiousWalk
import PatternLint.Proofs.EvaluationSteps
import PatternLint.Proofs.KnownStructure

/-! Assignments that are walked through and those that are evaluated. As long as the walk is
cautious, the frame of the variables holds the same in both. -/

namespace PatternLint

open Evaluation

section Variables

variable {fs : Frames} {name : String} {env : FrameId} {v : Value} {p : Policy} {depth : Nat}
  {scope : Scope} {s t : Store}

/-- A frame binds a name itself. -/
def Frames.Binds (fs : Frames) (id : FrameId) (name : String) : Prop :=
  ∃ frame, fs[id]? = some frame ∧ frame.vars.contains name = true

/-- A name that the innermost frame binds is found there. -/
theorem Frames.Binds.find? (h : fs.Binds env name) : fs.find? name env = some env := by
  obtain ⟨frame, hf, hc⟩ := h
  rw [Frames.find?, hf]
  exact if_pos hc

theorem Frames.Binds.of_same {gs : Frames} (h : fs.Binds env name) (hsame : gs[env]? = fs[env]?) :
    gs.Binds env name := by
  obtain ⟨frame, hf, hc⟩ := h
  exact ⟨frame, hsame.trans hf, hc⟩

/-- Definitions do not take a binding away. -/
theorem Frames.Binds.define {other : String} {id : FrameId} (h : fs.Binds env name) :
    (fs.define id other v).Binds env name := by
  obtain ⟨frame, hf, hc⟩ := h
  by_cases he : env = id
  · subst he
    refine ⟨{ frame with vars := frame.vars.put other v }, ?_, ?_⟩
    · rw [Frames.getElem?_define_self, hf, Option.map_some]
    · rw [Table.contains, Table.get?_put]
      split
      · rfl
      · exact hc
  · exact ⟨frame, by rw [Frames.getElem?_define_of_ne he, hf], hc⟩

theorem Frames.Binds.define_self (h : env < fs.size) : (fs.define env name v).Binds env name := by
  refine ⟨{ fs[env] with vars := fs[env].vars.put name v }, ?_, ?_⟩
  · rw [Frames.getElem?_define_self, Array.getElem?_eq_getElem h, Option.map_some]
  · rw [Table.contains, Table.get?_put_self, Option.isSome_some]

/-- The value of a bound name is what its frame holds, and nothing changes. -/
theorem eval_symbol_eq_ok {u : Value} (h : evalBy p depth (.sym name) env scope s = (.ok u, t))
    (hv : s.frames.symbol? name env = some v) : u = v ∧ t = s := by
  cases depth with
  | zero => cases h
  | succ depth =>
    rw [evalBy_symbol hv] at h
    cases h
    exact ⟨rfl, rfl⟩

/-- Names are looked up in matching frames and give matching values. -/
theorem symbol?_matches {w : Pairing} {s' : Store} {env' : FrameId} (hs : s.Alike False w s')
    (henv : w.labels.frames env env') (name : String) :
    Option.Rel (Matches w.labels) (s.frames.symbol? name env) (s'.frames.symbol? name env') := by
  unfold Frames.symbol?
  split
  · exact .some .nil
  · split
    · exact .some (.sym _)
    · exact rel_imp (fun _ _ => Loose.matches) (hs.lookup henv name)

theorem symbol?_eq_of_find? {id : FrameId} (h : fs.find? name env = fs.find? name id) :
    fs.symbol? name env = fs.symbol? name id := by
  simp only [Frames.symbol?, Frames.lookup?, h]

theorem symbol?_isSome (h : fs.Binds env name) : (fs.symbol? name env).isSome := by
  unfold Frames.symbol?
  split
  · rfl
  · split
    · rfl
    · obtain ⟨frame, hf, hc⟩ := h
      have hfind := (Frames.Binds.find? ⟨frame, hf, hc⟩ : fs.find? name env = some env)
      simp only [Frames.lookup?, hfind, Option.bind_some, Frames.valueIn?, hf]
      exact hc

end Variables

theorem rel_some {α : Type} {R : α → α → Prop} {a : α} {o : Option α}
    (h : Option.Rel R (some a) o) : ∃ b, o = some b ∧ R a b := by
  cases h with
  | some h => exact ⟨_, rfl, h⟩

namespace Analysis

/-- What holds of the place where the body of the form is evaluated. -/
structure InBody (doc : Document) (defs : Definitions) (names : List String) (scope' : Scope) :
    Prop where
  plain : defs.IsPlain
  cdr : defs.functions.get? "cdr" = none ∧ defs.macros.get? "cdr" = none ∧
    defs.aliases.get? "cdr" = none
  scope : defs = scope'.defs ∧ [] = scope'.expanding ∧ doc.loopLimit = scope'.loopLimit
  mutables : ∀ name ∈ names, name ∈ scope'.mutables

/-- The walk and an evaluation have come to the same point: what they have stored is alike, and the
frames of the variables stand for each other. -/
structure Linked (defs : Definitions) (names : List String) (frame frame' : FrameId) (w : Pairing)
    (f : Findings) (s' : Store) : Prop where
  defs : f.defs = defs
  alike : f.store.Alike False w s'
  twins : w.twins frame frame'
  bound : ∀ name ∈ names, f.store.frames.Binds frame name

namespace Linked

variable {doc : Document} {defs : Definitions} {names : List String} {frame frame' : FrameId}
  {w : Pairing} {f g : Findings} {s' t' u' : Store} {t : Store} {v v' : Value} {name : String}
  {mutables : List String} {expr : Value} {depth depth' : Nat} {scope' : Scope}

/-- The frame of the walk exists. -/
theorem frame_lt (h : Linked defs names frame frame' w f s') : frame < f.store.frames.size :=
  (h.alike.twins_lt h.twins).1

/-- What adds to a store without changing it leaves the link in place. -/
theorem kept (h : Linked defs names frame frame' w f s') (hk : f.store.Kept g.store)
    (hd : g.defs = f.defs) : Linked defs names frame frame' w g s' where
  defs := hd.trans h.defs
  alike := h.alike.kept hk (.refl s')
  twins := h.twins
  bound name hname := (h.bound name hname).of_same (hk.frames.same frame h.frame_lt)

/-- The variable that is assigned in both. -/
theorem define (h : Linked defs names frame frame' w f s') (hv : Matches w.labels v v')
    (name : String) :
    Linked defs names frame frame' w
      { f with store := { f.store with frames := f.store.frames.define frame name v } }
      { s' with frames := s'.frames.define frame' name v' } where
  defs := h.defs
  alike := h.alike.define h.twins (.inl hv) name
  twins := h.twins
  bound name hname := (h.bound name hname).define

/-- The value of an operand is the same in both. -/
theorem evaluated (hctx : InBody doc defs names scope') (h : Linked defs names frame frame' w f s')
    (hx : expr.IsPlain) (hd : depth ≤ depth')
    (hrun : confinedIn depth expr frame mutables defs doc.loopLimit f.store = (.ok v, t))
    (hrun' : eval depth' expr frame' scope' s' = (.ok v', t')) :
    ∃ w', w ≤ w' ∧ Linked defs names frame frame' w' { f with store := t } t' ∧
      w'.shadows f.store.frames.size frame' ∧ Matches w'.labels v v' := by
  let spare : FrameId → Prop := fun _ => False
  have hbeside : Store.Beside spare ⟨w, fun _ _ => False.elim⟩ f.store s' :=
    ⟨h.alike, fun _ => False.elim⟩
  obtain ⟨w', hw, ht, hshadow, hv⟩ := confinedIn_inPlace hbeside (.inl h.twins) hx hctx.plain
    hctx.scope hd hrun hrun'
  have hkeeps := (eval_of_confinedIn hd hrun).2
  refine ⟨w'.1, hw, ⟨h.defs, ht.1, hw.twins h.twins, fun name hname => ?_⟩, hshadow, hv⟩
  exact (h.bound name hname).of_same (hkeeps.same frame h.frame_lt)

/-- A frame that shows what the frame of the variables holds. -/
theorem find?_shadow {i : FrameId} (h : Linked defs names frame frame' w f s')
    (hi : w.shadows i frame') (hname : name ∈ names) :
    f.store.frames.find? name i = f.store.frames.find? name frame := by
  have hfind := h.alike.find (.inl h.twins) name
  have hfind' := h.alike.find (.inr hi) name
  rw [(h.bound name hname).find?] at hfind ⊢
  generalize s'.frames.find? name frame' = o' at hfind hfind'
  cases hfind with
  | some ho =>
    generalize f.store.frames.find? name i = o at hfind'
    cases hfind' with
    | some ho' => rw [(w.twins_iff ho ho').2 rfl]

/-- An assignment to a variable of the form. -/
theorem assign_eq (hctx : InBody doc defs names scope') (h : Linked defs names frame frame' w f s')
    (hname : name ∈ names) (v' : Value) :
    Policy.plain.assign name v' frame' scope' s' =
      (.ok (), { s' with frames := s'.frames.define frame' name v' }) := by
  have hfind := h.alike.find (.inl h.twins) name
  rw [(h.bound name hname).find?] at hfind
  generalize ho : s'.frames.find? name frame' = o at hfind
  cases hfind with
  | some htwins =>
    obtain rfl := (w.twins_iff h.twins htwins).1 rfl
    simp only [Policy.plain, Evaluation.assign, if_pos (hctx.mutables name hname), Eval.bind_apply,
      Eval.set, ho]
    rfl

end Linked

variable {doc : Document} {defs : Definitions} {names : List String} {frame frame' : FrameId}
  {w : Pairing} {f g : Findings} {s' t' u' : Store} {t : Store} {v v' last : Value} {name : String}
  {expr : Value} {depth : Nat} {scope' : Scope} {p : Place} {visit : Visitor}
  {allowed : Store → Value → Store → Prop}

/-- Inside of a body its own variables are bound. -/
theorem isBound_eq (h : f.store.frames.Binds p.env name) : isBound name p f = (.ok true, f) := by
  simp only [isBound, Analyze.bind_apply, Analyze.findings, Frames.isBound, h.find?]
  rfl

/-- A bound variable that may be assigned gets the value of the expression. -/
theorem assignAt_eq (hm : name ∈ p.mutables) (hb : t.frames.Binds p.env name)
    (hv : evaluate expr (some p.env) p.mutables f.defs doc.loopLimit f.store = (.ok v, t)) :
    assignAt doc name expr p f =
      (.ok (), { f with store := { t with frames := t.frames.define p.env name v } }) := by
  have hvalue : valueAt doc expr p f = (.ok v, { f with store := t }) := by
    simp only [valueAt, value, Analyze.run_apply, hv]
  simp only [assignAt, if_pos hm, Analyze.bind_apply, hvalue, Analyze.run_apply, Eval.set, hb.find?]
  rfl

/-- An operand that a cautious walk lets pass: visiting it changes nothing, and its value is the
same in the walk and in place. -/
theorem operand_agrees (hctx : InBody doc defs names scope')
    (hl : Linked defs names frame frame' w f s') (hp : p.env = frame) (hx : expr.IsPlain)
    (hdepth : maxDepth ≤ depth + p.path.length)
    (hwalk : guarded doc allowed visit expr p f = (.ok (), g))
    (heval : eval depth expr frame' scope' s' = (.ok v', t')) :
    visit expr p f = (.ok (), g) ∧ Linked defs names frame frame' w g s' ∧
      ∃ v t, allowed g.store v t ∧
          confinedIn (maxDepth - p.path.length) expr p.env p.mutables g.defs
          doc.loopLimit g.store = (.ok v, t) ∧
        ∃ w', w ≤ w' ∧ Linked defs names frame frame' w' { g with store := t } t' ∧
          w'.shadows g.store.frames.size frame' ∧ Matches w'.labels v v' := by
  obtain ⟨hvisit, v, t, hc, hallowed⟩ := guarded_eq_ok hwalk
  obtain ⟨hkept, hdefs, hrun⟩ := hc
  rw [hvisit] at hkept hdefs hrun
  have hg := hl.kept hkept hdefs
  rw [← hdefs] at hrun
  refine ⟨hvisit, hg, v, t, hallowed, hrun, ?_⟩
  rw [hp, hg.defs] at hrun
  exact hg.evaluated hctx hx (by omega) hrun heval

theorem visitPairs_bound {index : Nat} {args : List Value} {k : Findings}
    (hvisit : visit expr (p.part (index + 1)) f = (.ok (), g))
    (hb : g.store.frames.Binds p.env name) (hassign : assignAt doc name expr p g = (.ok (), k)) :
    visitPairs doc visit p index (.sym name :: expr :: args) f =
      visitPairs doc visit p (index + 2) args k := by
  rw [visitPairs]
  simp only [Analyze.bind_apply, hvisit, isBound_eq hb, if_true, hassign]

/-- Pairs are assigned in turn, in the walk and in the run; the induction is on them. -/
theorem pairs_agree (hctx : InBody doc defs names scope') (hp : p.env = frame)
    (hm : p.mutables = names) (hdepth : maxDepth ≤ depth + (p.path.length + 1)) {args : List Value}
    (hargs : Targets names args) (hplain : ∀ arg ∈ args, arg.IsPlain) {index : Nat}
    (hl : Linked defs names frame frame' w f s')
    (hwalk : visitPairs doc (guarded doc anyOutcome visit) p index args f = (.ok (), g))
    (heval : setPairs .plain (eval depth) last args frame' scope' s' = (.ok v', t'))
    (hv' : v' ≠ .unknown) :
    visitPairs doc visit p index args f = (.ok (), g) ∧
      ∃ w', w ≤ w' ∧ Linked defs names frame frame' w' g t' := by
  subst hp
  fun_induction Targets names args generalizing index last f s' w with
  | case1 name expr rest ih =>
    obtain ⟨hname, hrest⟩ := hargs
    obtain ⟨_, f₁, hoperand, -⟩ := Analyze.bind_eq_ok (by rwa [visitPairs] at hwalk)
    rw [setPairs] at heval
    obtain ⟨v, u', hvalue, heval⟩ := Eval.bind_eq_ok heval
    obtain ⟨_, u'', hassign, heval⟩ := Eval.bind_eq_ok heval
    obtain ⟨hvisit, hl₁, a, t, -, hrun, w₁, hw₁, hl₂, -, ha⟩ := operand_agrees
      (p := p.part (index + 1)) hctx hl rfl (hplain expr (.tail _ (.head _))) hdepth hoperand hvalue
    rw [hl₂.assign_eq hctx hname v] at hassign
    obtain ⟨-, rfl⟩ := Prod.mk.inj hassign
    have hvalue := evaluate_of_confinedIn (Nat.sub_le _ _) hrun
    have hassignAt := assignAt_eq (p := p) (hm ▸ hname) (hl₂.bound name hname) hvalue
    have hb := hl₁.bound name hname
    rw [visitPairs_bound hoperand hb hassignAt] at hwalk
    rw [visitPairs_bound hvisit hb hassignAt]
    obtain ⟨hsame, w₂, hw₂, hl₃⟩ := ih hrest (fun arg harg => hplain arg (.tail _ (.tail _ harg)))
      hwalk heval (hl₂.define ha name)
    exact ⟨hsame, w₂, le_trans hw₁ hw₂, hl₃⟩
  | case2 args hother =>
    cases args with
    | nil =>
      obtain ⟨-, rfl⟩ := Analyze.pure_eq_ok hwalk
      obtain ⟨-, rfl⟩ := Eval.pure_eq_ok heval
      exact ⟨rfl, w, le_rfl, hl⟩
    | cons target args =>
      have hstuck : setPairs .plain (eval depth) last (target :: args) frame' scope' =
          pure .unknown := by
        rw [setPairs]
        · exact hother
        · exact nofun
      rw [hstuck] at heval
      exact (hv' (Eval.pure_eq_ok heval).1.symm).elim

theorem visitPush_bound {head : String} {k : Findings}
    (hvisit : visit expr (p.part 1) f = (.ok (), g)) (hb : g.store.frames.Binds p.env name)
    (hassign : assignAt doc name (.list [.sym head, expr, .sym name]) p g = (.ok (), k)) :
    visitPush doc visit head [expr, .sym name] p f = (.ok true, k) := by
  rw [visitPush]
  simp only [Analyze.bind_apply, hvisit, isBound_eq hb, if_true, hassign]
  rfl

/-- The value of a variable after something was pushed. -/
def pushed (x old : Value) : Value :=
  if x.isUnknown || old.isUnknown then .unknown else Value.prepend [x] old

/-- Matching items in front of matching lists. -/
theorem pushed_matches {c : Labels} {x x' old old' : Value} (hx : Matches c x x')
    (hold : Matches c old old') : Matches c (pushed x old) (pushed x' old') := by
  simp only [pushed, hx.isUnknown_eq, hold.isUnknown_eq]
  split
  · exact .unknown
  · exact .prepend (.cons hx .nil) hold

/-- The value of a `push` form in a frame of its own, where the variable is assigned. -/
theorem evaluate_push {s : Store} {mutables : List String} {old : Value} {loopLimit : Nat}
    (hdepth : depth < maxDepth)
    (hrun : confinedIn depth expr frame mutables defs loopLimit s = (.ok v, t))
    (hname : name ∈ mutables) (hold : t.frames.symbol? name s.frames.size = some old) :
    evaluate (.list [.sym "push", expr, .sym name]) (some frame) mutables defs loopLimit s =
      (.ok (pushed v old),
        { t with frames := t.frames.define s.frames.size name (pushed v old) }) := by
  refine Eval.orDefault_ok .unknown ?_
  rw [show maxDepth = 998 + 1 + 1 from rfl,
    evalBy_form (rfl : SpecialForm.named? "push" = some .push)]
  have hvalue := (eval_of_confinedIn (Nat.le_of_lt_succ hdepth : depth ≤ 998 + 1) hrun).1
  simp only [SpecialForm.run, push, Eval.bind_apply, hvalue, evalBy_symbol hold]
  simp only [Policy.plain, Evaluation.assign, if_pos hname]
  rfl

theorem push_agrees (hctx : InBody doc defs names scope') (hp : p.env = frame)
    (hm : p.mutables = names) (hdepth : maxDepth ≤ depth + (p.path.length + 1)) {args : List Value}
    (hargs : ∀ element name, args = [element, .sym name] → name ∈ names)
    (hplain : ∀ arg ∈ args, arg.IsPlain) {done : Bool} (hl : Linked defs names frame frame' w f s')
    (hwalk : visitPush doc (guarded doc Detached visit) "push" args p f = (.ok done, g))
    (heval : push .plain (eval depth) args frame' scope' s' = (.ok v', t')) (hv' : v' ≠ .unknown) :
    done = true ∧ visitPush doc visit "push" args p f = (.ok true, g) ∧
      Linked defs names frame frame' w g t' := by
  subst hp
  unfold push at heval
  split at heval
  case h_2 => exact (hv' (Eval.pure_eq_ok heval).1.symm).elim
  rename_i element name
  have hname := hargs element name rfl
  obtain ⟨_, f₁, hoperand, -⟩ := Analyze.bind_eq_ok (by rwa [visitPush] at hwalk)
  obtain ⟨x', u', hx', heval⟩ := Eval.bind_eq_ok heval
  obtain ⟨old', u'', hold', heval⟩ := Eval.bind_eq_ok heval
  obtain ⟨_, u₃, hassign, heval⟩ := Eval.bind_eq_ok heval
  obtain ⟨-, rfl⟩ := Eval.pure_eq_ok heval
  obtain ⟨hvisit, hl₁, x, t, hdet, hrun, w₁, hw₁, hl₂, hshadow, hx⟩ := operand_agrees
    (p := p.part 1) hctx hl rfl (hplain element (.head _)) hdepth hoperand hx'
  obtain rfl := hdet.1.eq hx
  -- the element has no closure, so the frame it was evaluated in is of no further use
  have hkeeps := (eval_of_confinedIn (Nat.le_refl _) hrun).2
  have hnarrow : t.Alike False w u' := hl₁.alike.narrow hw₁ hl₂.alike
    (fun i i' hi => hkeeps.same i (hl₁.alike.frames_lt hi).1) hdet.2
  have hl₃ : Linked defs names p.env frame' w { f₁ with store := t } u' :=
    ⟨hl₁.defs, hnarrow, hl₁.twins, hl₂.bound⟩
  obtain ⟨old, hold⟩ := Option.isSome_iff_exists.1 (symbol?_isSome (hl₃.bound name hname))
  obtain ⟨_, hsymbol, hmatches⟩ :=
    rel_some (hold ▸ symbol?_matches hnarrow (.inl hl₁.twins) name)
  obtain ⟨rfl, rfl⟩ := eval_symbol_eq_ok hold' hsymbol
  -- the walk sees the old value through that frame, and assigns the variable there first
  rw [← symbol?_eq_of_find? (hl₂.find?_shadow hshadow hname)] at hold
  have hvalue := evaluate_push (by simp only [Place.part, List.length_cons, maxDepth]; omega) hrun
    (hm ▸ hname) hold
  have hl₄ : Linked defs names p.env frame' w { f₁ with store := { t with
      frames := t.frames.define f₁.store.frames.size name (pushed x old) } } u'' :=
    ⟨hl₁.defs, hnarrow.defineFree (fun _ hi => Nat.lt_irrefl _ (hl₁.alike.frames_lt hi).1) name _,
      hl₁.twins, fun _ h => (hl₃.bound _ h).define⟩
  have hassign : (Policy.plain.assign name (pushed x old') frame' scope') u'' = _ := hassign
  rw [hl₄.assign_eq hctx hname] at hassign
  obtain ⟨-, rfl⟩ := Prod.mk.inj hassign
  have hassignAt := assignAt_eq (p := p) (hm ▸ hname) (hl₄.bound name hname) hvalue
  have hb := hl₁.bound name hname
  rw [visitPush_bound hoperand hb hassignAt] at hwalk
  obtain ⟨hdone, rfl⟩ := Prod.mk.inj hwalk
  exact ⟨(Except.ok.inj hdone).symm, visitPush_bound hvisit hb hassignAt,
    hl₄.define (pushed_matches (hdet.1.matches _) hmatches) name⟩

/-- Taking an item off is seen by the walk as an assignment of the rest. -/
theorem visitPop_bound (hb : f.store.frames.Binds p.env name)
    (hassign : assignAt doc name (.list [.sym "cdr", .sym name]) p f = (.ok (), g)) :
    visitPop doc [.sym name] p f = (.ok true, g) := by
  rw [visitPop]
  simp only [Analyze.bind_apply, isBound_eq hb, if_true, hassign]
  rfl

/-- What is left of a list in a frame of its own. -/
theorem evaluate_cdr {s : Store} {old rest : Value} (mutables : List String) (loopLimit : Nat)
    (hcdr : defs.functions.get? "cdr" = none ∧ defs.macros.get? "cdr" = none ∧
      defs.aliases.get? "cdr" = none)
    (hold : Frames.symbol? (s.frames.push ⟨.ofList [], some frame⟩) name s.frames.size = some old)
    (hknown : old.isUnknown = false) (hrest : Primitive.cdr old = .ok rest) :
    evaluate (.list [.sym "cdr", .sym name]) (some frame) mutables defs loopLimit s =
      (.ok rest, { s with frames := s.frames.push ⟨.ofList [], some frame⟩ }) := by
  refine Eval.orDefault_ok .unknown ?_
  change callByName .plain (eval (998 + 1)) "cdr" [.sym name] _ _ _ = _
  rw [callByName_primitive (f := Primitive.unary Primitive.cdr) rfl hcdr rfl]
  have hcall : callPrimitive (Primitive.unary Primitive.cdr) [old] = pure rest := by
    simp [callPrimitive, hknown, Primitive.unary, hrest]
  rw [Eval.bind_apply, Evaluator.known, Evaluator.knownOnto, Eval.bind_apply,
    show eval (998 + 1) (.sym name) s.frames.size _ _ = (.ok old, _) from evalBy_symbol hold]
  simp only [hknown]
  change callPrimitive (Primitive.unary Primitive.cdr) [old] _ = _
  rw [hcall]
  rfl

/-- A run that takes an item off has found a list. -/
theorem pop_eq_ok {ev : Evaluator} {s : Store}
    (h : pop .plain ev [.sym name] frame scope' s = (.ok v, t)) (hv : v ≠ .unknown) : ∃ old u rest,
      ev (.sym name) frame scope' s = (.ok old, u) ∧
      old.isUnknown = false ∧ Primitive.cdr old = .ok rest ∧
        Policy.plain.assign name rest frame scope' u = (.ok (), t) := by
  obtain ⟨old, u, hold, h⟩ := Eval.bind_eq_ok h
  rcases hparts : parts old with e | ⟨first, rest⟩ <;> rw [hparts] at h
  · cases e with
    | signal =>
      obtain ⟨_, _, -, h⟩ := Eval.bind_eq_ok h
      exact (hv (Eval.pure_eq_ok h).1.symm).elim
    | _ => cases h
  · obtain ⟨_, u', hassign, h⟩ := Eval.bind_eq_ok h
    obtain ⟨rfl, rfl⟩ := Eval.pure_eq_ok h
    unfold parts at hparts
    split at hparts
    · cases hparts
      exact (hv rfl).elim
    · rename_i hknown
      cases hcar : Primitive.car old <;> cases hcdr : Primitive.cdr old <;>
        rw [hcar, hcdr] at hparts <;>
        cases hparts
      exact ⟨old, u, rest, hold, eq_false_of_ne_true hknown, hcdr, hassign⟩

/-- The walk evaluates the rest, the run has it from taking the list apart. -/
theorem pop_agrees (hctx : InBody doc defs names scope') (hp : p.env = frame)
    (hm : p.mutables = names) {args : List Value}
    (hargs : ∀ name, args = [.sym name] → name ∈ names)
    {done : Bool} (hl : Linked defs names frame frame' w f s')
    (hwalk : visitPop doc args p f = (.ok done, g))
    (heval : pop .plain (eval depth) args frame' scope' s' = (.ok v', t')) (hv' : v' ≠ .unknown) :
    done = true ∧ ∃ w', w ≤ w' ∧ Linked defs names frame frame' w' g t' := by
  subst hp
  unfold pop at heval
  split at heval
  case h_2 => exact (hv' (Eval.pure_eq_ok heval).1.symm).elim
  rename_i name
  have hname := hargs name rfl
  obtain ⟨old', u', rest', hold', hknown, hcdr', hassign⟩ := pop_eq_ok heval hv'
  obtain ⟨w₁, hw₁, -, hshadow, halike⟩ := hl.alike.newShadow (.inl hl.twins)
  have hl₁ : Linked defs names p.env frame' w₁ { f with store := { f.store with
      frames := f.store.frames.push ⟨.ofList [], some p.env⟩ } } s' :=
    ⟨hl.defs, halike, hw₁.twins hl.twins, fun _ h => (hl.bound _ h).of_same
      (((Keeps.refl (Nat.le_refl _)).push _).same _ hl.frame_lt)⟩
  obtain ⟨old, hold⟩ := Option.isSome_iff_exists.1 (symbol?_isSome (hl₁.bound name hname))
  obtain ⟨_, hsymbol, hmatches⟩ := rel_some (hold ▸ symbol?_matches halike (.inl hl₁.twins) name)
  obtain ⟨rfl, rfl⟩ := eval_symbol_eq_ok hold' hsymbol
  rw [← symbol?_eq_of_find? (hl₁.find?_shadow hshadow hname)] at hold
  have hrest := hmatches.cdr
  rw [hcdr'] at hrest
  generalize hcdr : Primitive.cdr old = r at hrest
  cases hrest with
  | ok hrest =>
    rw [hl₁.assign_eq hctx hname] at hassign
    obtain ⟨-, rfl⟩ := Prod.mk.inj hassign
    have hvalue := evaluate_cdr p.mutables doc.loopLimit (hl.defs ▸ hctx.cdr) hold
      (hmatches.isUnknown_eq.trans hknown) hcdr
    have hassignAt := assignAt_eq (p := p) (hm ▸ hname) (hl₁.bound name hname) hvalue
    rw [visitPop_bound (hl.bound name hname) hassignAt] at hwalk
    obtain ⟨hdone, rfl⟩ := Prod.mk.inj hwalk
    exact ⟨(Except.ok.inj hdone).symm, w₁, hw₁, hl₁.define hrest name⟩

/-- A cautious walk over a form that gets through does what the walk does, and what it does to the
variables is what the evaluation does, if that has a known result. -/
def KeepsUp (doc : Document) (defs : Definitions) (names : List String) (frame frame' : FrameId)
    (scope' : Scope) (limit calls depth : Nat) (form : Value) : Prop :=
  ∀ ⦃p : Place⦄ ⦃f g : Findings⦄ ⦃w : Pairing⦄ ⦃s' t' : Store⦄ ⦃v' : Value⦄,
    p.env = frame → p.mutables = names → maxDepth ≤ depth + p.path.length →
    Linked defs names frame frame' w f s' → cautiousVisit doc limit calls form p f = (.ok (), g) →
    eval depth form frame' scope' s' = (.ok v', t') → v' ≠ .unknown →
    Analysis.visit doc limit calls form p f = (.ok (), g) ∧
      ∃ w', w ≤ w' ∧ Linked defs names frame frame' w' g t'

/-- It is enough to look at the step that is taken behind all calls. -/
theorem KeepsUp.of_step {limit calls : Nat} {form : Value}
    (h : ∀ limit, KeepsUp doc defs names frame frame' scope' (limit + 1) 0 depth form) :
    KeepsUp doc defs names frame frame' scope' limit calls depth form := by
  intro p f g w s' t' v' hp hm hdepth hl hwalk heval hv'
  obtain ⟨k, hcautious, hvisit⟩ := cautiousVisit_eq_ok hwalk
  rw [hvisit]
  exact h k hp hm hdepth hl (hcautious ▸ hwalk) heval hv'

/-- A known body has known forms before the last one. -/
theorem body_cons_eq_ok {ev : Evaluator} {form : Value} {rest : List Value} {s : Store}
    (h : ev.body (form :: rest) frame scope' s = (.ok v, t)) (hv : v ≠ .unknown) :
    ∃ a u v', ev form frame scope' s = (.ok a, u) ∧ a ≠ .unknown ∧
      ev.body rest frame scope' u = (.ok v', t) ∧ v' ≠ .unknown ∧ (rest ≠ [] → v' = v) := by
  cases rest with
  | nil => exact ⟨v, t, .nil, h, hv, rfl, nofun, fun h => (h rfl).elim⟩
  | cons next rest =>
    rw [Evaluator.body] at h
    · obtain ⟨a, u, ha, h⟩ := Eval.bind_eq_ok h
      split at h
      · exact (hv (Eval.pure_eq_ok h).1.symm).elim
      · rename_i hknown
        refine ⟨a, u, v, ha, ?_, h, hv, fun _ => rfl⟩
        rintro rfl
        exact hknown rfl
    · exact nofun

/-- A cautious walk over the first forms of a body comes to where the
evaluation of the body comes. -/
theorem items_keepUp {forms rest : List Value} {limit calls index : Nat}
    (hforms : ∀ form ∈ forms, KeepsUp doc defs names frame frame' scope' limit calls depth form)
    (hp : p.env = frame) (hm : p.mutables = names) (hdepth : maxDepth ≤ depth + (p.path.length + 1))
    (hl : Linked defs names frame frame' w f s')
    (hwalk : visitItems (cautiousVisit doc limit calls) p index forms f = (.ok (), g))
    (heval : (eval depth).body (forms ++ rest) frame' scope' s' = (.ok v', t'))
    (hv' : v' ≠ .unknown) :
    visitItems (Analysis.visit doc limit calls) p index forms f = (.ok (), g) ∧
      ∃ w' u' v, w ≤ w' ∧ Linked defs names frame frame' w' g u' ∧
        (eval depth).body rest frame' scope' u' = (.ok v, t') ∧ (rest ≠ [] → v = v') := by
  induction forms generalizing index f w s' v' with
  | nil =>
    obtain ⟨-, rfl⟩ := Analyze.pure_eq_ok hwalk
    exact ⟨rfl, w, s', v', le_rfl, hl, heval, fun _ => rfl⟩
  | cons form forms ih =>
    obtain ⟨_, f₁, hform, hwalk⟩ := Analyze.bind_eq_ok hwalk
    obtain ⟨a, u, v'', ha, hknown, heval, hv'', hsame⟩ := body_cons_eq_ok heval hv'
    obtain ⟨hvisit, w₁, hw₁, hl₁⟩ := hforms form (.head _) (p := p.part index) hp hm hdepth hl hform
      ha hknown
    obtain ⟨hitems, w₂, u', v, hw₂, hl₂, hrest, hsame'⟩ :=
      ih (fun form h => hforms form (.tail _ h)) hl₁
      hwalk heval hv''
    refine ⟨?_, w₂, u', v, le_trans hw₁ hw₂, hl₂, hrest, fun hne => ?_⟩
    · rw [visitItems, Analyze.bind_apply, hvisit]
      exact hitems
    · exact (hsame' hne).trans (hsame (List.append_ne_nil_of_right_ne_nil forms hne))

/-- A construct that is done leaves nothing to visit. -/
theorem visitStep_of_done {visit : Nat → Visitor} {head : String} {args : List Value}
    {c : Construct}
    (hc : Construct.named? head = some c) (h : c.run doc visit head args p f = (.ok true, g)) :
    visitStep doc visit (.list (.sym head :: args)) p f = (.ok (), g) := by
  rw [visitStep_construct hc, Analyze.bind_apply, h]
  rfl

theorem visitStep_eq_ok {visit : Nat → Visitor} {head : String} {args : List Value} {c : Construct}
    (hc : Construct.named? head = some c)
    (h : visitStep doc visit (.list (.sym head :: args)) p f = (.ok (), g)) :
    ∃ done f₁, c.run doc visit head args p f = (.ok done, f₁) ∧ (done = true → f₁ = g) := by
  rw [visitStep_construct hc] at h
  obtain ⟨done, f₁, hrun, h⟩ := Analyze.bind_eq_ok h
  refine ⟨done, f₁, hrun, ?_⟩
  rintro rfl
  exact (Analyze.pure_eq_ok h).2

theorem plain_args {head : String} {args : List Value}
    (h : (Value.list (.sym head :: args)).IsPlain) : ∀ arg ∈ args, arg.IsPlain := by
  match h with
  | .list (.cons _ hargs) => exact fun arg => List.forall₂_same.1 hargs arg

/-- A special form is run one level deeper. -/
theorem eval_form_eq_ok {head : String} {args : List Value} {form : SpecialForm}
    (hs : SpecialForm.named? head = some form)
    (h : eval depth (.list (.sym head :: args)) frame' scope' s' = (.ok v', t')) :
    ∃ d, depth = d + 1 ∧ form.run .plain (eval d) args frame' scope' s' = (.ok v', t') := by
  cases depth with
  | zero => cases h
  | succ d => exact ⟨d, rfl, (evalBy_form hs).symm ▸ h⟩

/-- The induction is on the form: every assignment on its straight line is followed by the walk. -/
theorem straightLine_keepsUp (hctx : InBody doc defs names scope') {form : Value}
    (hform : StraightLine names form) {limit calls : Nat} (hplain : form.IsPlain) :
    KeepsUp doc defs names frame frame' scope' limit calls depth form := by
  induction hform generalizing limit calls depth with
  | @setq args hargs =>
    refine .of_step fun k p f g w s' t' v' hp hm hdepth hl hwalk heval hv' => ?_
    have hs : SpecialForm.named? "setq" = some .set := rfl
    have hc : Construct.named? "setq" = some .assignment := rfl
    obtain ⟨d, rfl, hbody⟩ := eval_form_eq_ok hs heval
    have hwalk : visitStep doc (fun calls => guarded doc anyOutcome (Analysis.visit doc k calls))
        (.list (.sym "setq" :: args)) p f = (.ok (), g) := hwalk
    obtain ⟨_, f₁, hrun, hdone⟩ := visitStep_eq_ok hc hwalk
    obtain ⟨_, f₂, hpairs, hrun⟩ := Analyze.bind_eq_ok hrun
    obtain ⟨rfl, rfl⟩ := Analyze.pure_eq_ok hrun
    obtain rfl := hdone rfl
    simp only [SpecialForm.run, Evaluation.set] at hbody
    split at hbody
    · obtain ⟨hvisit, hlinked⟩ := pairs_agree hctx hp hm (by omega) hargs (plain_args hplain) hl
        hpairs hbody hv'
      refine ⟨visitStep_of_done hc ?_, hlinked⟩
      rw [Construct.run, Analyze.bind_apply, hvisit]
      rfl
    · exact (hv' (Eval.pure_eq_ok hbody).1.symm).elim
  | @push args hargs =>
    refine .of_step fun k p f g w s' t' v' hp hm hdepth hl hwalk heval hv' => ?_
    have hs : SpecialForm.named? "push" = some .push := rfl
    have hc : Construct.named? "push" = some .push := rfl
    obtain ⟨d, rfl, hbody⟩ := eval_form_eq_ok hs heval
    have hwalk : visitStep doc (fun calls => guarded doc Detached (Analysis.visit doc k calls))
        (.list (.sym "push" :: args)) p f = (.ok (), g) := hwalk
    obtain ⟨done, f₁, hrun, hdone⟩ := visitStep_eq_ok hc hwalk
    obtain ⟨rfl, hvisit, hlinked⟩ := push_agrees hctx hp hm (by omega) hargs (plain_args hplain) hl
      hrun hbody hv'
    obtain rfl := hdone rfl
    exact ⟨visitStep_of_done hc hvisit, w, le_rfl, hlinked⟩
  | @pop args hargs =>
    refine .of_step fun k p f g w s' t' v' hp hm hdepth hl hwalk heval hv' => ?_
    have hs : SpecialForm.named? "pop" = some .pop := rfl
    have hc : Construct.named? "pop" = some .pop := rfl
    obtain ⟨d, rfl, hbody⟩ := eval_form_eq_ok hs heval
    have hwalk : visitStep doc (fun calls => guarded doc anyOutcome (Analysis.visit doc k calls))
        (.list (.sym "pop" :: args)) p f = (.ok (), g) := hwalk
    obtain ⟨done, f₁, hrun, hdone⟩ := visitStep_eq_ok hc hwalk
    obtain ⟨rfl, hlinked⟩ := pop_agrees hctx hp hm hargs hl hrun hbody hv'
    obtain rfl := hdone rfl
    exact ⟨visitStep_of_done hc hrun, hlinked⟩
  | @progn forms hforms ih =>
    refine .of_step fun k p f g w s' t' v' hp hm hdepth hl hwalk heval hv' => ?_
    have hs : SpecialForm.named? "progn" = some .progn := rfl
    have hc : Construct.named? "progn" = some .sequence := rfl
    obtain ⟨d, rfl, hbody⟩ := eval_form_eq_ok hs heval
    have hwalk : visitStep doc (cautiousVisit doc k) (.list (.sym "progn" :: forms)) p f =
        (.ok (), g) := hwalk
    obtain ⟨_, f₁, hrun, hdone⟩ := visitStep_eq_ok hc hwalk
    obtain ⟨_, f₂, hitems, hrun⟩ := Analyze.bind_eq_ok hrun
    obtain ⟨rfl, rfl⟩ := Analyze.pure_eq_ok hrun
    obtain rfl := hdone rfl
    have hkeep : ∀ form ∈ forms, KeepsUp doc defs names frame frame' scope' k 2 d form :=
      fun form h => ih form h (plain_args hplain form h)
    have hbody : (eval d).body (forms ++ []) frame' scope' s' = (.ok v', t') := by
      rwa [List.append_nil]
    obtain ⟨hvisit, w', u', v, hw, hlinked, hrest, -⟩ := items_keepUp hkeep hp hm (by omega) hl
      hitems hbody hv'
    obtain ⟨-, rfl⟩ := Eval.pure_eq_ok hrest
    refine ⟨visitStep_of_done hc ?_, w', hw, hlinked⟩
    rw [Construct.run, Analyze.bind_apply, hvisit]
    rfl

end Analysis

end PatternLint
