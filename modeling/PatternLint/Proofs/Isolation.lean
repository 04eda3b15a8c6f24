import PatternLint.Proofs.CallerFrames
import PatternLint.Proofs.EvaluationSteps
import PatternLint.Proofs.KnownResults
import PatternLint.Proofs.Material

/-! Calls of functions of the text. Their bodies see the global variables, and neither the frames of
the caller nor which variables it lets them assign. -/

namespace PatternLint

namespace Store

/-- Each of the `seen` frames stands for itself, and so does every closure. -/
def inside (s : Store) (seen : FrameId → Prop) : Pairing where
  twins i i' := i = i' ∧ seen i
  shadows _ _ := False
  serials k k' := k = k' ∧ k < s.closures
  twins_iff := by
    rintro i _ j _ ⟨rfl, -⟩ ⟨rfl, -⟩
    rfl
  serials_iff := s.own_serials_iff
  apart _ _ _ h := h.elim

/-- The closures in global variables and in `seen` frames were made in `seen` frames, and these lie
inside `seen` frames only. -/
def Encloses (s : Store) (seen : FrameId → Prop) : Prop :=
  s.Alike False (s.inside seen) s

variable {s : Store} {seen : FrameId → Prop} {id : FrameId}

theorem not_inside (h : ¬seen id) (i : FrameId) :
    ¬(s.inside seen).labels.frames id i ∧ ¬(s.inside seen).labels.frames i id := by
  constructor
  · rintro (⟨rfl, hi⟩ | hi)
    · exact h hi
    · exact hi
  · rintro (⟨rfl, hi⟩ | hi)
    · exact h hi
    · exact hi

/-- Without closures in global variables nothing is seen. -/
theorem encloses_none (h : s.globals.IsPlain) : s.Encloses fun _ => False where
  twins _ _ hi := hi.2.elim
  shadows _ _ hi := hi.elim
  serials := by
    rintro k _ ⟨rfl, hk⟩
    exact ⟨hk, hk⟩
  globals := h.same _ _

end Store

namespace Simulation

/-- Evaluations of the language in two stores with the same global variables, inside a fence. -/
def isolated (F : Fence) : Simulation :=
  paired (.same False) F .plain .plain SameScope never

theorem isolated_lockstep (F : Fence) : (isolated F).Lockstep :=
  paired_lockstep (plain_aligned id) fun _ h => h.elim

/-- Inside of a fence both always come to the same. -/
theorem isolated_ends {F : Fence} {w : Pairing} {given : Value → Prop} {m m' : Eval Value}
    {s s' : Store} (h : (isolated F).Sim (w, ()) given (isolated F).Known m m')
    (hs : s.Alike False w s') (hF : F.Keeps w s.frames s'.frames) :
    ∃ w', w ≤ w' ∧ (m s).2.Alike False w' (m' s').2 ∧
      F.Keeps w' (m s).2.frames (m' s').2.frames ∧
      Agrees (Matches w'.labels) (m s).1 (m' s').1 := by
  obtain ⟨w', hw, ht, hr⟩ :=
    h.agrees id (fun _ hf => hf) (fun _ hstray => hstray) ⟨hs.bare, hF, hs.globals⟩
  exact ⟨w'.1, hw.1, .of_bare ht.1 ht.2.2, ht.2.1, hr⟩

end Simulation

open Evaluation in
/-- An evaluation in a frame of its own leaves all others as they are, as long as global variables
do not bring closures in. -/
theorem eval_freshFrame_keeps (depth : Nat) {s : Store} {expr : Value} {scope : Scope}
    (hs : s.globals.IsPlain) (hx : expr.IsPlain) (hdefs : scope.defs.IsPlain)
    (hroot : scope.root = s.frames.size) :
    Keeps s.frames.size s.frames
      (eval depth expr s.frames.size scope
        { s with frames := s.frames.push ⟨.ofList [], none⟩ }).2.frames := by
  let F : Fence := ⟨s.inside fun _ => False, s.frames, s.frames⟩
  have hS := Simulation.isolated_lockstep F
  have hF : F.Keeps F.inside s.frames s.frames :=
    ⟨fun _ _ => .inl, ⟨Nat.le_refl _, Nat.le_refl _⟩, fun _ _ _ => rfl, fun _ _ _ => rfl⟩
  have hs := Store.encloses_none hs
  obtain ⟨w, hw, hadds, htwins, hpushed⟩ := Store.Alike.newFrame hs .none .nil
  have hat : (Simulation.isolated F).At (w, ()) s.frames.size s.frames.size scope scope :=
    ⟨.inl htwins, by rwa [hroot], rfl, hdefs⟩
  have hev : (Simulation.isolated F).Follows (eval depth) (eval depth) :=
    Simulation.evalBy_follows hS (.inl ⟨rfl, rfl⟩)
  have hx : (Simulation.isolated F).Known (w, ()) expr expr := hx.matches _
  obtain ⟨w', -, -, hkeeps, -⟩ := Simulation.isolated_ends (hev hx hat) hpushed (hF.push hadds _ _)
  refine ⟨hkeeps.size.1, fun i hi => hkeeps.first i hi fun i' => ?_⟩
  exact (Store.not_inside (fun h => h) i').1

/-- So does finding the value of a global variable. -/
theorem globalValue_keeps (depth : Nat) {name : String} {e : Value} {s : Store} {scope : Scope}
    (hs : s.globals.IsPlain) (he : s.globals.get? name = some (.pending e))
    (hdefs : scope.defs.IsPlain) :
    Keeps s.frames.size s.frames
      (Evaluation.globalValue .plain (eval depth) name scope s).2.frames := by
  have hplain : e.IsPlain := hs name _ he
  let u : Store := { s with globals := s.globals.put name (.busy e) }
  let inner : Scope := ⟨scope.defs, s.frames.size, [], [], [], scope.loopLimit⟩
  have hu : u.globals.IsPlain := hs.put (g := .busy e) hplain name
  have hdefs : inner.defs.IsPlain := hdefs
  have hkeeps := eval_freshFrame_keeps depth hu hplain hdefs rfl
  rw [globalValue_pending he]
  dsimp only [Store.withGlobal]
  cases depth with
  | zero => exact (Keeps.refl (Nat.le_refl _)).push _
  | succ depth =>
    change Keeps _ _ (Eval.orDefault .unknown (eval (depth + 1) e _ _) _).2.frames
    rw [Eval.orDefault_snd]
    exact hkeeps

open Evaluation in
/-- Two evaluations in stores that are alike always come to the same values of global variables. -/
theorem globalValue_alike (depth : Nat) (name : String) {s s' : Store} {w : Pairing}
    {scope scope' : Scope} (hs : s.Alike False w s')
    (hscope : Simulation.SameScope w scope scope') :
    let r := globalValue .plain (eval depth) name scope s
    let r' := globalValue .plain (eval depth) name scope' s'
    ∃ w', w ≤ w' ∧ r.2.Alike False w' r'.2 ∧ Agrees (Matches w'.labels) r.1 r'.1 := by
  have hS := Simulation.isolated_lockstep .none
  have hev : (Simulation.isolated .none).Follows (eval depth) (eval depth) :=
    Simulation.evalBy_follows hS (.inl ⟨rfl, rfl⟩)
  obtain ⟨w', hw, ht, -, hr⟩ := Simulation.isolated_ends
    (Simulation.Lockstep.readsGlobals hev hS (w := (w, ())) hscope name) hs (Fence.none_keeps _ _ _)
  exact ⟨w', hw, ht, hr⟩

/-- The value of a constant holds no closures. -/
theorem Value.IsPlain.constant? {v x : Value} (h : v.IsPlain) (hx : v.constant? = some x) :
    x.IsPlain := by
  unfold Value.constant? at hx
  split at hx
  case h_1 =>
    cases hx
    cases h with
    | list h =>
      cases h with
      | cons _ h =>
        cases h with
        | cons h _ =>
          split
          · exact .unknown
          · exact h
  case h_2 =>
    cases hx
    exact .sym _
  case h_3 =>
    split at hx
    · cases hx
      exact .nil
    · split at hx <;> cases hx
      exact .sym _
  all_goals
    cases hx
    try exact h

theorem plain_constants {args values : List Value} (hargs : ∀ a ∈ args, a.IsPlain)
    (h : args.mapM Value.constant? = some values) : ∀ v ∈ values, v.IsPlain := by
  induction args generalizing values with
  | nil =>
    cases h
    exact List.forall_mem_nil _
  | cons v rest ih =>
    obtain ⟨hv, hrest⟩ := List.forall_mem_cons.1 hargs
    rw [List.mapM_cons] at h
    obtain ⟨x, hx, h⟩ := Option.bind_eq_some_iff.1 h
    obtain ⟨xs, hxs, h⟩ := Option.bind_eq_some_iff.1 h
    cases h
    exact List.forall_mem_cons.2 ⟨hv.constant? hx, ih hrest hxs⟩

theorem constants_isSome {args : List Value} (h : ∀ a ∈ args, a.constant?.isSome) :
    (args.mapM Value.constant?).isSome := by
  induction args with
  | nil => rfl
  | cons a rest ih =>
    obtain ⟨ha, hrest⟩ := List.forall_mem_cons.1 h
    obtain ⟨x, hx⟩ := Option.isSome_iff_exists.1 ha
    obtain ⟨xs, hxs⟩ := Option.isSome_iff_exists.1 (ih hrest)
    rw [List.mapM_cons, hx, hxs]
    rfl

open Evaluation in
theorem evaluate_localCall {s : Store} {defs : Definitions} {name : String} {d : Definition}
    {args values : List Value} {env : Option FrameId} {mutables : List String} {loopLimit : Nat}
    (h : defs.Local name d) (hargs : args.mapM Value.constant? = some values) :
    evaluate (.list (.sym name :: args)) env mutables defs loopLimit s =
      (applyDefinition .plain (eval 999) name d values
        ⟨defs, s.frames.size, [], mutables, [], loopLimit⟩).orDefault .unknown
        { s with frames := s.frames.push ⟨.ofList [], env⟩ } := by
  change Eval.orDefault .unknown (eval (998 + 2) _ s.frames.size _) _ = _
  simp only [Eval.orDefault,
    eval_localCall ⟨defs, s.frames.size, [], mutables, [], loopLimit⟩ h hargs]

open Evaluation in
/-- Definitions that are entered from two places do the same, and leave what they do not see. -/
theorem applyDefinition_isolated (depth : Nat) (scope scope' : Scope) {s s' : Store} {w : Pairing}
    {name : String} {d : Definition} {values : List Value} (hs : s.Alike False w s')
    (hdefs : scope.defs.IsPlain) (hd : scope.defs.functions.get? name = some d)
    (hvalues : ∀ v ∈ values, v.IsPlain)
    (hscope : scope' = { scope with
      root := scope'.root, mutables := scope'.mutables, outerMutables := scope'.outerMutables }) :
    let r := applyDefinition .plain (eval depth) name d values scope s
    let r' := applyDefinition .plain (eval depth) name d values scope' s'
    ∃ w', w ≤ w' ∧ r.2.Alike False w' r'.2 ∧
      Fence.Keeps ⟨w, s.frames, s'.frames⟩ w' r.2.frames r'.2.frames ∧
      Agrees (Matches w'.labels) r.1 r'.1 := by
  let F : Fence := ⟨w, s.frames, s'.frames⟩
  have hS := Simulation.isolated_lockstep F
  have hcode := hdefs.matches w.labels name d (.inl hd)
  have hvalues : List.Forall₂ ((Simulation.isolated F).Loosely (w, ())) values values :=
    List.forall₂_same.2 fun v hv => .inl ((hvalues v hv).matches _)
  have henter : ∀ ⦃w' : Pairing × Unit⦄ ⦃i i'⦄, (w, ()) ≤ w' → w'.1.twins i i' →
      Simulation.SameScope w'.1 (scope.entering name i (LambdaList.names d.formals))
        (scope'.entering name i' (LambdaList.names d.formals)) := by
    intro w' i i' _ hi
    exact ⟨hi, by rw [hscope]; rfl, hdefs⟩
  have hsim : (Simulation.isolated F).Sim (w, ()) Simulation.isUnknown (Simulation.isolated F).Known
      (applyDefinition .plain (eval depth) name d values scope)
      (applyDefinition .plain (eval depth) name d values scope') :=
    Simulation.applyDefinition_enters hS.toSound (Simulation.evalBy_follows hS (.inl ⟨rfl, rfl⟩))
      hcode.1 hcode.2 hvalues (by rw [hscope]) henter
  have hkeeps : F.Keeps w s.frames s'.frames :=
    ⟨fun _ _ => .inl, ⟨Nat.le_refl _, Nat.le_refl _⟩, fun _ _ _ => rfl, fun _ _ _ => rfl⟩
  exact Simulation.isolated_ends hsim hs hkeeps

/-- A call of a function of the text with constant arguments comes to the same for all callers in a
store, whatever their frames hold and whichever variables they let it assign. It leaves all frames
as they are that the global variables do not see. -/
theorem localCall_isolated (s t t' : Store) (seen : FrameId → Prop) (defs : Definitions)
    (name : String) (d : Definition) (args : List Value) (env env' : Option FrameId)
    (mutables mutables' : List String) (loopLimit : Nat) (r r' : Except Fault Value)
    (hs : s.Encloses seen) (hdefs : defs.IsPlain) (hname : defs.Local name d)
    (hargs : ∀ a ∈ args, a.IsPlain ∧ a.constant?.isSome)
    (hrun : evaluate (.list (.sym name :: args)) env mutables defs loopLimit s = (r, t))
    (hrun' : evaluate (.list (.sym name :: args)) env' mutables' defs loopLimit s = (r', t')) :
    Agrees (fun v v' => v.erased = v'.erased) r r' ∧
      ∀ id < s.frames.size, ¬seen id →
        t.frames[id]? = s.frames[id]? ∧ t'.frames[id]? = s.frames[id]? := by
  obtain ⟨values, hvalues⟩ : ∃ values, args.mapM Value.constant? = some values :=
    Option.isSome_iff_exists.1 (constants_isSome fun a ha => (hargs a ha).2)
  have hplain := plain_constants (fun a ha => (hargs a ha).1) hvalues
  rw [evaluate_localCall hname hvalues] at hrun hrun'
  -- both callers have made a root frame of their own, which nothing sees
  have hroots : Store.Alike False
      (s.inside seen) { s with frames := s.frames.push ⟨.ofList [], env⟩ }
        { s with frames := s.frames.push ⟨.ofList [], env'⟩ } :=
    hs.kept (Store.Alike.kept_push s _) (Store.Alike.kept_push s _)
  obtain ⟨w, -, -, hkeeps, hagrees⟩ := applyDefinition_isolated 999
    ⟨defs, s.frames.size, [], mutables, [], loopLimit⟩
    ⟨defs, s.frames.size, [], mutables', [], loopLimit⟩ hroots hdefs hname.function hplain rfl
  have hresults := (hagrees.mono fun _ _ => Matches.erased_eq).orDefault (v := .unknown) rfl
  rw [hrun, hrun'] at hresults
  refine ⟨hresults, fun id hid hseen => ?_⟩
  have hold : ∀ o : Option FrameId,
      (s.frames.push ⟨.ofList [], o⟩)[id]? = s.frames[id]? := fun o => by
    rw [Array.getElem?_push, if_neg (Nat.ne_of_lt hid)]
  have hlt : ∀ o : Option FrameId, id < (s.frames.push ⟨.ofList [], o⟩).size := fun o => by
    rw [Array.size_push]
    exact Nat.lt_succ_of_lt hid
  have ht := congrArg Prod.snd hrun
  have ht' := congrArg Prod.snd hrun'
  rw [Eval.orDefault_snd] at ht ht'
  dsimp only at ht ht'
  constructor
  · rw [← ht, hkeeps.first id (hlt env) fun i => (Store.not_inside hseen i).1]
    exact hold env
  · rw [← ht', hkeeps.second id (hlt env') fun i => (Store.not_inside hseen i).2]
    exact hold env'

/-- A function that binds a variable of its caller's name. -/
def shadowing : Definition :=
  ⟨.list [.sym "a"], [.list [.sym "let", .list [.list [.sym "x", .sym "a"]],
    .list [.sym "setq", .sym "x", .list [.sym "+", .sym "x", .sym "k"]], .sym "x"]]⟩

/-- Two callers that bind `x`, and a global variable `k`. -/
def twoCallers : Store :=
  ⟨#[⟨⟨[("x", .int 1)]⟩, none⟩, ⟨⟨[("x", .int 2)]⟩, none⟩], 0, ⟨[("k", .pending (.int 7))]⟩⟩

theorem Definitions.isPlain_single {name : String} {d : Definition} (h : d.formals.IsPlain)
    (hb : ∀ form ∈ d.body, form.IsPlain) : Definitions.IsPlain ⟨⟨[(name, d)]⟩, .empty, .empty⟩ := by
  rintro k d' (hk | hk)
  · have hmem := List.mem_singleton.1 (Table.mem_of_get? hk)
    cases hmem
    exact ⟨h, hb⟩
  · cases hk

theorem shadowing_isolated :
    let defs : Definitions := ⟨⟨[("f", shadowing)]⟩, .empty, .empty⟩
    twoCallers.Encloses (fun _ => False) ∧ defs.IsPlain ∧ defs.Local "f" shadowing ∧
      ∃ t t', evaluate (.list [.sym "f", .int 1]) (some 0) ["x"] defs 1000 twoCallers =
          (.ok (.int 8), t) ∧
        evaluate (.list [.sym "f", .int 1]) (some 1) [] defs 1000 twoCallers = (.ok (.int 8), t') ∧
        ∀ id < 2, t.frames[id]? = twoCallers.frames[id]? ∧
          t'.frames[id]? = twoCallers.frames[id]? := by
  intro defs
  have hs : twoCallers.Encloses fun _ => False := by
    refine Store.encloses_none fun name g h => ?_
    have hmem := List.mem_singleton.1 (Table.mem_of_get? h)
    cases hmem
    exact .int 7
  have hdefs : defs.IsPlain := Definitions.isPlain_single (by simp [shadowing])
    (by simp [shadowing])
  have hname : defs.Local "f" shadowing := ⟨rfl, rfl, rfl, rfl⟩
  obtain ⟨t, hrun⟩ : ∃ t, evaluate (.list [.sym "f", .int 1]) (some 0) ["x"] defs 1000 twoCallers =
      (.ok (.int 8), t) :=
    givesInt_ok (by decide +kernel)
  obtain ⟨t', hrun'⟩ : ∃ t', evaluate (.list [.sym "f", .int 1]) (some 1) [] defs 1000 twoCallers =
      (.ok (.int 8), t') :=
    givesInt_ok (by decide +kernel)
  have h := localCall_isolated twoCallers t t' _ defs "f" shadowing _ _ _ _ _ _ _ _ hs hdefs hname
    (by simp [Value.constant?]) hrun hrun'
  exact ⟨hs, hdefs, hname, t, t', hrun, hrun', fun i hi => h.2 i hi id⟩

/-- The global variable holds a closure that was made in the frame of the caller. -/
def seenCaller : Store :=
  ⟨#[⟨⟨[("y", .int 0)]⟩, none⟩], 1,
    ⟨[("g", .known (.closure .nil [.list [.sym "setq", .sym "y", .int 5]] (some 0) 0))]⟩⟩

/-- A function that binds a variable and calls the closure. -/
def callsBack : Definition :=
  ⟨.nil, [.list [.sym "let", .list [.list [.sym "y", .int 1]], .list [.sym "funcall", .sym "g"]]]⟩

theorem seenCaller_encloses : seenCaller.Encloses fun id => id < seenCaller.frames.size where
  twins := by
    rintro i _ ⟨rfl, hi⟩
    obtain rfl : i = 0 := Nat.lt_one_iff.1 hi
    exact ⟨_, _, rfl, rfl, .cons ⟨rfl, .inl (.int 0)⟩ .nil, .none, nofun, nofun⟩
  shadows _ _ h := h.elim
  serials := by
    rintro k _ ⟨rfl, hk⟩
    exact ⟨hk, hk⟩
  globals name := by
    cases hg : seenCaller.globals.get? name with
    | none => exact .none
    | some g =>
      have hmem := List.mem_singleton.1 (Table.mem_of_get? hg)
      cases hmem
      have hbody : Value.IsPlain (.list [.sym "setq", .sym "y", .int 5]) := by simp
      refine .some (.known (.inl (.closure .nil (.cons (hbody.matches _) .nil) ?_ ?_)))
      · exact .some (.inl ⟨rfl, Nat.one_pos⟩)
      · exact ⟨rfl, Nat.one_pos⟩

/-- A frame that the global variables see may change. They come to see one when a closure of the
caller is assigned to a variable that another closure has captured. -/
theorem localCall_changes_seenFrame :
    ¬∀ (s t : Store) (defs : Definitions) (name : String) (d : Definition) (args : List Value)
      (env : Option FrameId) (mutables : List String) (loopLimit : Nat) (r : Except Fault Value),
      (s.Encloses fun id => id < s.frames.size) → defs.IsPlain → defs.Local name d →
        (∀ a ∈ args, a.IsPlain ∧ a.constant?.isSome) →
        evaluate (.list (.sym name :: args)) env mutables defs loopLimit s = (r, t) →
          ∀ id < s.frames.size, t.frames[id]? = s.frames[id]? := by
  intro h
  let defs : Definitions := ⟨⟨[("f", callsBack)]⟩, .empty, .empty⟩
  have hdefs : defs.IsPlain := Definitions.isPlain_single (by simp [callsBack])
    (by simp [callsBack])
  rcases hrun : evaluate (.list [.sym "f"]) (some 0) [] defs 1000 seenCaller with ⟨r, t⟩
  have hsame := h seenCaller t defs "f" callsBack [] (some 0) [] 1000 r seenCaller_encloses hdefs
    ⟨rfl, rfl, rfl, rfl⟩ (List.forall_mem_nil _) hrun 0 (by decide)
  have hfive : t.frames.holdsInt "y" 0 5 := by
    have : (evaluate (.list [.sym "f"]) (some 0) [] defs 1000 seenCaller).2.frames.holdsInt
        "y" 0 5 := by
      decide +kernel
    rwa [hrun] at this
  have hzero : seenCaller.frames.holdsInt "y" 0 5 = false := by
    decide
  simp only [Frames.holdsInt, Frames.valueIn?, hsame] at hfive hzero
  rw [hzero] at hfive
  cases hfive

end PatternLint
