import PatternLint.Proofs.Pairing

/-! Evaluations of which one knows more than the other. Where operands that may stay unknown have no
effect, results that are known in both are the same. -/

namespace PatternLint

namespace Value

mutual
/-- A value without what tells closures of the same function apart. -/
def erased : Value → Value
  | list items => list (eraseAll items)
  | dotted items tail => dotted (eraseAll items) (erased tail)
  | vec items => vec (eraseAll items)
  | closure formals body _ _ => closure (erased formals) (eraseAll body) none 0
  | v => v
def eraseAll : List Value → List Value
  | [] => []
  | v :: rest => erased v :: eraseAll rest
end

end Value

variable {c : Labels} {v v' : Value} {vs vs' : List Value}

theorem eraseAll_eq (h : List.Forall₂ (fun v v' => v.erased = v'.erased) vs vs') :
    Value.eraseAll vs = Value.eraseAll vs' := by
  induction h with
  | nil => rfl
  | cons h _ ih => rw [Value.eraseAll, Value.eraseAll, h, ih]

theorem Matches.erased_eq (h : Matches c v v') : v.erased = v'.erased := by
  refine h.induction_on rfl (fun _ => rfl) (fun _ => rfl) (fun _ => rfl)
    (fun _ => rfl) ?list ?dotted ?vec
    ?closure rfl
  case list =>
    intro vs vs' _ ih
    rw [Value.erased, Value.erased, eraseAll_eq ih]
  case dotted =>
    intro vs vs' x x' _ ih _ iht
    rw [Value.erased, Value.erased, eraseAll_eq ih, iht]
  case vec =>
    intro vs vs' _ ih
    rw [Value.erased, Value.erased, eraseAll_eq ih]
  case closure =>
    intro f f' b b' i j k l _ ihf _ ihb _ _
    rw [Value.erased, Value.erased, ihf, eraseAll_eq ihb]

namespace LambdaList

/-- Some parameter is bound to the list of all arguments that are left. -/
def gathers (formals : Value) : Bool :=
  (specs formals).contains (.keyword .rest)

end LambdaList

/-- The value of an operand that is `free` to be unknown comes about without effect, and others are
known. -/
def Settled (free : Value → Bool) (expr : Value) (s : Store)
    (r : Except Fault Value × Store) : Prop :=
  if free expr.erased then s.Kept r.2 else r.1 ≠ .ok .unknown

/-- The same, where `calm` says which effects do not matter. -/
def SettledUpTo (calm : Store → Store → Prop) (free : Value → Bool) (expr : Value) (s : Store)
    (r : Except Fault Value × Store) : Prop :=
  if free expr.erased then calm s r.2 else r.1 ≠ .ok .unknown

section Settled

variable {calm calm' : Store → Store → Prop} {free : Value → Bool} {expr expr' : Value}
  {s s' : Store} {r r' : Except Fault Value × Store}

theorem SettledUpTo.imp (h : SettledUpTo calm free expr s r) (hc : calm s r.2 → calm' s' r'.2)
    (hk : r.1 ≠ .ok .unknown → r'.1 ≠ .ok .unknown) : SettledUpTo calm' free expr s' r' := by
  unfold SettledUpTo at h ⊢
  split at h
  · rw [if_pos ‹_›]
    exact hc h
  · rw [if_neg ‹_›]
    exact hk h

theorem SettledUpTo.both (h : SettledUpTo calm free expr s r) (hr : r.1 = .ok .unknown)
    (he : expr.erased = expr'.erased) (h' : SettledUpTo calm' free expr' s' r') :
    calm s r.2 ∧ calm' s' r'.2 := by
  unfold SettledUpTo at h h'
  rw [← he] at h'
  split at h
  · rename_i hfree
    rw [if_pos hfree] at h'
    exact ⟨h, h'⟩
  · exact (h hr).elim

end Settled

namespace Policy

open Classical in
/-- Refuses operands that are not settled, and parameters that gather arguments. -/
noncomputable def cautious (free : Value → Bool) : Policy :=
  { plain with
    operand := fun ev expr env scope s =>
      if Settled free expr s (ev expr env scope s) then ev expr env scope s
      else (.error refusal, s)
    bind := fun formals args s =>
      if LambdaList.gathers formals then (.error refusal, s)
      else (.ok (LambdaList.bind formals args), s) }

theorem cautious_operand (free : Value → Bool) (ev : Evaluator) (expr : Value) (env : FrameId)
    (scope : Scope) (s : Store) :
    (cautious free).operand ev expr env scope s = (.error refusal, s) ∨
      (cautious free).operand ev expr env scope s = ev expr env scope s ∧
        Settled free expr s (ev expr env scope s) := by
  simp only [cautious]
  split
  · rename_i h
    exact .inr ⟨rfl, h⟩
  · exact .inl rfl

/-- An operand that is free to be unknown and leaves the store as it is. -/
theorem cautious_operand_kept {free : Value → Bool} {ev : Evaluator} {expr : Value} {env : FrameId}
    {scope : Scope} {s : Store} {r : Except Fault Value} (hf : free expr.erased = true)
    (h : ev expr env scope s = (r, s)) :
    (cautious free).operand ev expr env scope s = (r, s) := by
  have hs : Settled free expr s (ev expr env scope s) := by
    rw [Settled, if_pos hf, h]
    exact ⟨Keeps.refl (Nat.le_refl _), Nat.le_refl _, rfl⟩
  exact (if_pos hs).trans h

theorem cautious_checks (free : Value → Bool) : (cautious free).Checks 0 Evaluation.assign where
  operand ev expr env scope s := by
    rcases cautious_operand free ev expr env scope s with h | h
    · exact .inr (congrArg Prod.fst h)
    · exact .inl h.1
  assign _ _ _ _ _ _ := .inl ⟨rfl, fun _ => ⟨Nat.zero_le _, nofun⟩⟩
  bind formals args s := by
    by_cases h : LambdaList.gathers formals
    · exact .inr (congrArg Prod.fst (if_pos h))
    · exact .inl (if_neg h)
  home _ _ _ := .inl rfl

end Policy

namespace Simulation

section Settled

variable {C : Course True} {p q : Policy} {scope : Pairing → Scope → Scope → Prop}
  {calm calm' : Store → Store → Prop} {free : Value → Bool}

/-- Two runs of operands that are settled stay in step, where effects that do not
matter leave stores alike. -/
theorem settled_operand
    (hp : ∀ ev expr env scope s, p.operand ev expr env scope s = (.error Policy.refusal, s) ∨
      p.operand ev expr env scope s = ev expr env scope s ∧
        SettledUpTo calm free expr s (ev expr env scope s))
    (hq : ∀ ev expr env scope s, q.operand ev expr env scope s = (.error Policy.refusal, s) ∨
      q.operand ev expr env scope s = ev expr env scope s ∧
        SettledUpTo calm' free expr s (ev expr env scope s))
    (hcalm : ∀ (w : Pairing × C.State) s s' t t', (paired C .none p q scope never).store w s s' →
      calm s t → calm' s' t' → (paired C .none p q scope never).store w t t')
    {ev ev' : Evaluator} (hev : (paired C .none p q scope never).Follows ev ev') :
    (paired C .none p q scope never).FollowsLoosely (p.operand ev) (q.operand ev') := by
  intro w expr expr' env env' c c' hx hat s s' hs
  rcases hp ev expr env c s with h | ⟨h, hr⟩
  · rw [h]
    exact .first (.inr trivial)
  rcases hq ev' expr' env' c' s' with h' | ⟨h', hr'⟩
  · rw [h']
    exact .second (.inr trivial)
  rw [h, h']
  have he := Matches.erased_eq hx
  have hstray : ∀ w, ¬(paired C .none p q scope never).stray w := fun _ h =>
    C.stray_strict h trivial
  rcases (hev hx hat s s' hs).ends hstray with ⟨w', hw, hs', hr⟩ | hoff | hoff
  · exact .agree w' hw hs' (hr.mono fun _ _ => .inl)
  · rcases hrun : ev expr env c s with ⟨_ | v, t⟩ <;> rw [hrun] at hoff hr
    · exact .first (.inr trivial)
    · obtain rfl : v = .unknown := hoff.2
      obtain ⟨ht, ht'⟩ := hr.both rfl he hr'
      rcases hrun' : ev' expr' env' c' s' with ⟨_ | v', t'⟩ <;> rw [hrun'] at ht'
      · exact .second (.inr trivial)
      · exact .agree w le_rfl (hcalm w _ _ _ _ hs ht ht') (.ok (.inr ⟨trivial, .inl rfl⟩))
  · rcases hrun' : ev' expr' env' c' s' with ⟨_ | v', t'⟩ <;> rw [hrun'] at hoff hr'
    · exact .second (.inr trivial)
    · obtain rfl : v' = .unknown := hoff.2
      obtain ⟨ht', ht⟩ := hr'.both rfl he.symm hr
      rcases hrun : ev expr env c s with ⟨_ | v, t⟩ <;> rw [hrun] at ht
      · exact .first (.inr trivial)
      · exact .agree w le_rfl (hcalm w _ _ _ _ hs ht ht') (.ok (.inr ⟨trivial, .inr rfl⟩))

end Settled

/-- Two cautious evaluations, one of which may know more than the other. -/
noncomputable def cautious (free : Value → Bool) (C : Course True) : Simulation :=
  paired C .none (.cautious free) (.cautious free) SameScope never

variable {free : Value → Bool} {C : Course True} {w : Pairing × C.State}

theorem cautious_off {α : Type} {refused : Fault → Prop} {given : α → Prop} {r : Except Fault α}
    (h : r = .error Policy.refusal) : (cautious free C).Off refused given r := by
  rw [h]
  exact .inr trivial

theorem cautious_kept {s s' t t' : Store} (hs : (cautious free C).store w s s') (ht : s.Kept t)
    (ht' : s'.Kept t') : (cautious free C).store w t t' := by
  refine ⟨hs.1.kept ⟨ht.frames, ht.closures, rfl⟩ ⟨ht'.frames, ht'.closures, rfl⟩,
    Fence.none_keeps _ _ _, ?_⟩
  rw [ht.globals, ht'.globals]
  exact hs.2.2

theorem cautious_aligned : (cautious free C).Aligned := by
  refine sameScope_aligned (fun _ _ => id) rfl rfl (fun _ _ _ _ _ _ _ => paired_assign)
    (fun _ _ => settled_operand (Policy.cautious_operand free) (Policy.cautious_operand free)
      fun _ _ _ _ _ => cautious_kept) ?_
  intro w f f' args args' hf ha
  have hspecs := specs_eq (S := cautious free C) (w := w) hf
  intro s s' hs
  by_cases hg : LambdaList.gathers f
  · exact .first (cautious_off (congrArg Prod.fst (if_pos hg)))
  · have hbind : (Policy.cautious free).bind f args s = (.ok (LambdaList.bind f args), s) :=
      if_neg hg
    have hbind' : (Policy.cautious free).bind f' args' s' = (.ok (LambdaList.bind f' args'), s') :=
      if_neg (by rwa [LambdaList.gathers, ← hspecs])
    rw [hbind, hbind', LambdaList.bind, LambdaList.bind, ← hspecs]
    rw [LambdaList.gathers, List.contains_iff_mem] at hg
    refine .agree w le_rfl hs (.ok (LambdaList.bindSpecs_loose (fun _ => ?_) ha))
    have hnone := LambdaList.gathered_eq_nil (by decide : LambdaList.Mode.required ≠ .rest) hg
    simp [hnone]

end Simulation

/-- Everything in a store stands for itself. -/
def Store.identity (s : Store) : Pairing where
  twins i i' := i = i' ∧ i < s.frames.size
  shadows _ _ := False
  serials k k' := k = k' ∧ k < s.closures
  twins_iff := by
    rintro i _ j _ ⟨rfl, -⟩ ⟨rfl, -⟩
    rfl
  serials_iff := s.own_serials_iff
  apart _ _ _ h := h.elim

theorem cautious_follows (free : Value → Bool) {w : Pairing} {expr expr' : Value}
    {env env' : Option FrameId} {mutables : List String} {defs : Definitions} {loopLimit : Nat}
    (hx : Matches w.labels expr expr') (henv : Option.Rel w.labels.frames env env')
    (hdefs : defs.IsPlain) (s s' : Store) (hs : s.Alike True w s') :
    let r := evaluateBy (.cautious free) expr env mutables defs loopLimit s
    let r' := evaluateBy (.cautious free) expr' env' mutables defs loopLimit s'
    (∃ w', w ≤ w' ∧ r.2.Alike True w' r'.2 ∧ Agrees (Matches w'.labels) r.1 r'.1) ∨
      (Simulation.cautious free (.same True)).Off Simulation.never Simulation.isUnknown r.1 ∨
      (Simulation.cautious free (.same True)).Off Simulation.never Simulation.isUnknown r'.1 := by
  have hS : (Simulation.cautious free (.same True)).Lockstep :=
    Simulation.paired_lockstep Simulation.cautious_aligned fun _ hf => hf.elim
  have hsim : (Simulation.cautious free (.same True)).Sim (w, ()) Simulation.isUnknown
      (Simulation.cautious free (.same True)).Known
      (evaluateBy (.cautious free) expr env mutables defs loopLimit)
      (evaluateBy (.cautious free) expr' env' mutables defs loopLimit) := by
    refine Simulation.within_follows hS.toSound (Simulation.evalBy_follows hS (.inl ⟨rfl, rfl⟩))
      hS.refused_depth hx henv ?_
    exact fun w' i i' _ hi => ⟨hi, rfl, hdefs⟩
  have hrun := hsim s s' ⟨hs.bare, Fence.none_keeps _ _ _, hs.globals⟩
  refine (hrun.ends fun _ => id).imp_left ?_
  rintro ⟨w', hw, ht, hr⟩
  exact ⟨w'.1, hw.1, Store.Alike.of_bare ht.1 ht.2.2, hr⟩

/-- If one store differs from another only in that it knows more, then two cautious evaluations in
them whose results are known give the same result, and so do the evaluations without caution. -/
theorem known_result_same (free : Value → Bool) (s s' t t' : Store) (expr v v' : Value)
    (env : Option FrameId) (mutables : List String) (defs : Definitions) (loopLimit : Nat)
    (hs : s.Alike True s.identity s') (hx : Matches s.identity.labels expr expr)
    (henv : ∀ id ∈ env, id < s.frames.size) (hdefs : defs.IsPlain)
    (hrun : evaluateBy (.cautious free) expr env mutables defs loopLimit s = (.ok v, t))
    (hrun' : evaluateBy (.cautious free) expr env mutables defs loopLimit s' = (.ok v', t'))
    (hv : v ≠ .unknown) (hv' : v' ≠ .unknown) :
    evaluate expr env mutables defs loopLimit s = (.ok v, t) ∧
      evaluate expr env mutables defs loopLimit s' = (.ok v', t') ∧ v.erased = v'.erased := by
  have hchecks := Policy.cautious_checks free
  refine ⟨(Supervision.run_of_checked (.inl rfl) hchecks (Nat.zero_le _) hrun).1,
    (Supervision.run_of_checked (.inl rfl) hchecks (Nat.zero_le _) hrun').1, ?_⟩
  have henv : Option.Rel s.identity.labels.frames env env := by
    cases env with
    | none => exact .none
    | some id => exact .some (.inl ⟨rfl, henv id rfl⟩)
  rcases cautious_follows free hx henv hdefs s s' hs with ⟨w, -, -, hr⟩ | hoff | hoff
  · rw [hrun, hrun'] at hr
    cases hr with
    | ok h => exact Matches.erased_eq h
  · rw [hrun] at hoff
    exact (hv hoff.2).elim
  · rw [hrun'] at hoff
    exact (hv' hoff.2).elim

/-- A store whose only frame binds `x`. -/
def storeWithX (x : Value) : Store :=
  ⟨#[⟨⟨[("x", x)]⟩, none⟩], 0, .empty⟩

theorem storeWithX_alike {x x' : Value} (h : Loose True (storeWithX x).identity.labels x x') :
    (storeWithX x).Alike True (storeWithX x).identity (storeWithX x') where
  twins := by
    rintro i _ ⟨rfl, hi⟩
    obtain rfl : i = 0 := Nat.lt_one_iff.1 hi
    exact ⟨_, _, rfl, rfl, .cons ⟨rfl, h⟩ .nil, .none, nofun, nofun⟩
  shadows _ _ h := h.elim
  serials := by
    rintro k _ ⟨rfl, hk⟩
    exact ⟨hk, hk⟩
  globals _ := .none

theorem variableValue_bound {p : Policy} {ev : Evaluator} {name : String} {env : FrameId}
    {scope : Scope} {s : Store} {v : Value}
    (hname : name ≠ "nil" ∧ name ≠ "t" ∧ Value.isKeywordName name = false)
    (h : s.frames.lookup? name env = some v) :
    Evaluation.variableValue p ev name env scope s = (.ok v, s) := by
  obtain ⟨hnil, ht, hkey⟩ := hname
  simp only [Evaluation.variableValue, if_neg hnil, hkey, ht, or_self, Bool.false_eq_true, if_false,
    Eval.bind_apply, Eval.lookup?, h]
  rfl

/-- The form `(let ((a x)) 1)`. -/
def unusedOperand : Value :=
  .list [.sym "let", .list [.list [.sym "a", .sym "x"]], .int 1]

theorem unusedOperand_run (x : Value) : ∃ t, evaluateBy (.cautious fun _ => true) unusedOperand
    (some 0) [] .empty 1000 (storeWithX x) = (.ok (.int 1), t) := by
  let p := Policy.cautious fun _ => true
  let u : Store := ⟨#[⟨⟨[("x", x)]⟩, none⟩, ⟨⟨[]⟩, some 0⟩], 0, .empty⟩
  let scope : Scope := ⟨.empty, 1, [], [], [], 1000⟩
  have hlook : u.frames.lookup? "x" 1 = some x := by
    simp [u, Frames.lookup?, Frames.find?, Frames.valueIn?, Table.contains, Table.get?]
  have hx : p.operand (evalBy p 999) (.sym "x") 1 scope u = (.ok x, u) :=
    Policy.cautious_operand_kept rfl (variableValue_bound (by decide +kernel) hlook)
  have hops : Evaluator.operands (p.operand (evalBy p 999)) [.sym "x"] 1 scope u =
      (.ok [x], u) := by
    rw [Evaluator.operands, List.mapM_cons, Eval.bind_apply, hx]
    rfl
  have hlet : evalBy p 1000 unusedOperand 1 scope u =
      (Evaluator.operands (p.operand (evalBy p 999)) [.sym "x"] 1 scope >>= fun values =>
        Eval.newFrame (some 1) (["a"].zip values) >>= fun i =>
          evalBy p 999 (.int 1) i (scope.binding ["a"])) u := by
    rfl
  rw [Eval.bind_apply, hops] at hlet
  refine ⟨{ u with frames := u.frames.push ⟨.ofList [("a", x)], some 1⟩ }, ?_⟩
  change Eval.orDefault .unknown (evalBy p 1000 unusedOperand 1 scope) u = _
  rw [Eval.orDefault, hlet]
  rfl

theorem unusedOperand_result_same : ∃ t t',
    evaluate unusedOperand (some 0) [] .empty 1000 (storeWithX .unknown) = (.ok (.int 1), t) ∧
      evaluate unusedOperand (some 0) [] .empty 1000 (storeWithX (.str "a")) = (.ok (.int 1), t') ∧
        (Value.int 1).erased = (Value.int 1).erased := by
  obtain ⟨t, h⟩ := unusedOperand_run .unknown
  obtain ⟨t', h'⟩ := unusedOperand_run (.str "a")
  have hx : unusedOperand.IsPlain :=
    .list (.cons (.sym _) (.cons (.list (.cons (.list (.cons (.sym _) (.cons (.sym _) .nil))) .nil))
      (.cons (.int 1) .nil)))
  refine ⟨t, t', known_result_same (fun _ => true) _ _ t t' unusedOperand (.int 1) (.int 1) (some 0)
    [] .empty 1000 (storeWithX_alike (.inr ⟨trivial, .inl rfl⟩)) (hx.matches _) ?_ ?_ h h' nofun
    nofun⟩
  · rintro id ⟨⟩
    decide
  · rintro name d (hd | hd) <;> cases hd

/-- The form `(let* ((y 1) (a (if x (setq y 2) 3))) y)`. -/
def branchAssignment : Value :=
  .list [.sym "let*", .list [.list [.sym "y", .int 1],
    .list [.sym "a", .list [.sym "if", .sym "x", .list [.sym "setq", .sym "y", .int 2], .int 3]]],
    .sym "y"]

/-- Whether a run gave a number. -/
def givesInt (n : Int) (r : Except Fault Value × Store) : Bool :=
  match r.1 with
  | .ok (.int m) => m == n
  | _ => false

theorem givesInt_ok {r : Except Fault Value × Store} {n : Int} (h : givesInt n r = true) :
    ∃ t, r = (.ok (.int n), t) := by
  obtain ⟨_ | v, t⟩ := r
  · cases h
  · cases v with
    | int m => exact ⟨t, by rw [eq_of_beq h]⟩
    | _ => cases h

/-- Whether a run gave an unknown value. -/
def givesUnknown (r : Except Fault Value × Store) : Bool :=
  match r.1 with
  | .ok .unknown => true
  | _ => false

theorem givesUnknown_ok {r : Except Fault Value × Store} (h : givesUnknown r = true) :
    r.1 = .ok .unknown := by
  unfold givesUnknown at h
  split at h
  · assumption
  · cases h

/-- Nothing is known of `x` where the result is one, and where `x` is known it is two. -/
theorem branchAssignment_result_differs :
    (storeWithX .unknown).Alike True (storeWithX .unknown).identity (storeWithX (.sym "t")) ∧
      branchAssignment.IsPlain ∧ ∃ t t',
        evaluate branchAssignment (some 0) [] .empty 1000 (storeWithX .unknown) =
          (.ok (.int 1), t) ∧
        evaluate branchAssignment (some 0) [] .empty 1000 (storeWithX (.sym "t")) =
          (.ok (.int 2), t') ∧
        (Value.int 1).erased ≠ (Value.int 2).erased := by
  have h :
      givesInt 1 (evaluate branchAssignment (some 0) [] .empty 1000 (storeWithX .unknown)) := by
    decide +kernel
  have h' : givesInt 2
      (evaluate branchAssignment (some 0) [] .empty 1000 (storeWithX (.sym "t"))) := by
    decide +kernel
  obtain ⟨t, h⟩ := givesInt_ok h
  obtain ⟨t', h'⟩ := givesInt_ok h'
  refine ⟨storeWithX_alike (.inr ⟨trivial, .inl rfl⟩), ?_, t, t', h, h', ?_⟩
  · refine .list (.cons (.sym _) (.cons (.list (.cons ?_ (.cons ?_ .nil))) (.cons (.sym _) .nil)))
    · exact .list (.cons (.sym _) (.cons (.int 1) .nil))
    · refine .list (.cons (.sym _) (.cons (.list (.cons (.sym _) (.cons (.sym _) ?_))) .nil))
      exact .cons (.list (.cons (.sym _) (.cons (.sym _) (.cons (.int 2) .nil))))
        (.cons (.int 3) .nil)
  · intro h
    cases h

end PatternLint
