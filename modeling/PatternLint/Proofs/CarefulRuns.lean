import PatternLint.Proofs.CallerFrames
import PatternLint.Proofs.KnownResults
import PatternLint.Proofs.SettlingEval
import PatternLint.Proofs.Supervision

/-! Unknown values inside of other values. Evaluation gives up on a form one of whose parts is
unknown, but for calls of functions whose parameters gather their arguments into a list. -/

namespace PatternLint

open Evaluation

/-- Values no part of which is unknown. -/
def Material.known : Material where
  symbol _ := True
  unknown := False
  runs := True
  proper := False
  symbol_t := True.intro
  runs_lambda := id
  runs_rxToString := id

/-- Refuses to gather an unknown argument into a list. -/
def Policy.discerning : Policy :=
  { plain with
    bind := fun formals args s =>
      if (LambdaList.gathered .required (LambdaList.specs formals) args).any Value.isUnknown then
        (.error refusal, s)
      else (.ok (LambdaList.bind formals args), s) }

theorem discerning_checks : Policy.discerning.Checks 0 Evaluation.assign where
  operand _ _ _ _ _ := .inl rfl
  assign _ _ _ _ _ _ := .inl ⟨rfl, fun _ => ⟨Nat.zero_le _, nofun⟩⟩
  bind formals args s := by
    by_cases h : (LambdaList.gathered .required (LambdaList.specs formals) args).any Value.isUnknown
    · exact .inr (congrArg Prod.fst (if_pos h))
    · exact .inl (if_neg h)
  home _ _ _ := .inl rfl

theorem binds_discerning {ι : Type} {F : Filter ι} {m : Material} :
    Binds F m Policy.discerning.bind := by
  intro P formals args _ ha
  refine .const fun s hs => ?_
  by_cases h : (LambdaList.gathered .required (LambdaList.specs formals) args).any Value.isUnknown
  · have hrun : Policy.discerning.bind formals args s = (.error Policy.refusal, s) := if_pos h
    rw [hrun]
    exact ⟨hs, .error⟩
  · have hrun : Policy.discerning.bind formals args s = (.ok (LambdaList.bind formals args), s) :=
      if_neg h
    rw [hrun]
    refine ⟨hs, .ok (LambdaList.bindSpecs_tracked ha fun a hmem => ?_)⟩
    refine (ha a (LambdaList.gathered_subset _ _ _ hmem)).madeOf
      (Bool.eq_false_iff.2 fun hu => h ?_)
    exact List.any_eq_true.2 ⟨a, hmem, hu⟩

/-- As long as no unknown argument is gathered into a list, a value is unknown as a whole or not at
all. -/
theorem unknown_not_hidden (expr v : Value) (env : Option FrameId) (mutables : List String)
    (defs : Definitions) (loopLimit : Nat) (s t : Store) (hexpr : expr.MadeOf .known)
    (hdefs : defs.MadeOf .known) (hs : s.MadeOf .known)
    (hrun : evaluateBy .discerning expr env mutables defs loopLimit s = (.ok v, t)) :
    evaluate expr env mutables defs loopLimit s = (.ok v, t) ∧ v.Tracked .known ∧
      t.MadeOf .known := by
  have hplain := Supervision.run_of_checked (.inl rfl) discerning_checks (Nat.zero_le _) hrun
  have hev := steady_evalBy .tooDeep hdefs binds_discerning maxDepth Set.univ []
  have hkeeps := keeps_within (fun frame scope hat => hev expr frame scope hexpr hat) .unknown env
    mutables loopLimit
  obtain ⟨ht, hv⟩ := hkeeps.run hs.within
  have hsame : within (evalBy (.variant .tooDeep Policy.discerning.bind) maxDepth) .unknown expr env
      mutables defs loopLimit s = (.ok v, t) := hrun
  rw [hsame] at ht hv
  exact ⟨hplain.1, hv v rfl, ht.toMadeOf⟩

/-- The function `f` gives the list of its arguments. -/
def gatheringDefs : Definitions :=
  ⟨⟨[("f", ⟨.list [.sym "&rest", .sym "xs"], [.sym "xs"]⟩)]⟩, .empty, .empty⟩

theorem gatheringDefs_known : gatheringDefs.MadeOf .known := by
  refine ⟨fun name d h => ?_, nofun, nofun⟩
  have hmem := Table.mem_of_get? h
  simp only [gatheringDefs, List.mem_singleton, Prod.mk.injEq] at hmem
  obtain ⟨-, rfl⟩ := hmem
  exact ⟨by simp [Material.known], by simp [Material.known]⟩

/-- The form `(f 1)`. -/
def gatheredNumber : Value :=
  .list [.sym "f", .int 1]

/-- The form `(f y)`, where nothing is known about `y`. -/
def gatheredUnknown : Value :=
  .list [.sym "f", .sym "y"]

theorem gatheredNumber_not_hidden : ∃ v t,
    evaluateBy .discerning gatheredNumber none [] gatheringDefs 100 .empty = (.ok v, t) ∧
      evaluate gatheredNumber none [] gatheringDefs 100 .empty = (.ok v, t) ∧
        v.Tracked .known ∧ t.MadeOf .known := by
  have hexpr : gatheredNumber.MadeOf .known := by simp [gatheredNumber, Material.known]
  rcases hrun : evaluateBy .discerning gatheredNumber none
    [] gatheringDefs 100 .empty with ⟨_ | v, t⟩
  · have hok : (evaluateBy .discerning gatheredNumber none [] gatheringDefs 100 .empty).1.isOk := by
      decide +kernel
    rw [hrun] at hok
    cases hok
  · exact ⟨v, t, rfl, unknown_not_hidden _ v _ _ _ _ _ t hexpr gatheringDefs_known .empty hrun⟩

/-- Whether a result is the list of an unknown value. -/
def isHidingList : Except Fault Value → Bool
  | .ok (.list [.unknown]) => true
  | _ => false

theorem gatheredUnknown_hidden :
    ¬∀ (expr v : Value) (env : Option FrameId) (mutables : List String) (defs : Definitions)
      (loopLimit : Nat) (s t : Store), expr.MadeOf .known → defs.MadeOf .known → s.MadeOf .known →
      evaluate expr env mutables defs loopLimit s = (.ok v, t) → v.Tracked .known := by
  intro h
  have hhidden : isHidingList (evaluate gatheredUnknown none [] gatheringDefs 100 .empty).1 := by
    decide +kernel
  have hexpr : gatheredUnknown.MadeOf .known := by simp [gatheredUnknown, Material.known]
  rcases hrun : evaluate gatheredUnknown none [] gatheringDefs 100 .empty with ⟨_ | v, t⟩ <;>
    rw [hrun] at hhidden
  · cases hhidden
  · unfold isHidingList at hhidden
    split at hhidden
    · rename_i heq
      cases heq
      rcases h _ _ _ _ _ _ _ t hexpr gatheringDefs_known .empty hrun with hv | hv
      · cases hv
      · simp [Material.known] at hv
    · cases hhidden

end PatternLint

/-! Evaluations in which values that stay unknown do no harm: they come about without effects that
matter, and no list hides them. -/

namespace PatternLint

/-- Frames that were there have not changed. Global variables may have. -/
structure Store.Calm (s t : Store) : Prop where
  frames : Keeps s.frames.size s.frames t.frames
  closures : s.closures ≤ t.closures

namespace Policy

open Classical in
/-- Refuses operands that are not settled, arguments that hide an unknown value in a list, and
assignments to captured variables from outside of the function they are in. -/
noncomputable def carefulUpTo (calm : Store → Store → Prop) (free : Value → Bool) : Policy :=
  { discerning with
    operand := fun ev expr env scope s =>
      if SettledUpTo calm free expr s (ev expr env scope s) then ev expr env scope s
      else (.error refusal, s)
    assign := fun name v env scope s =>
      if s.frames.captures scope.root name env scope then (.error refusal, s)
      else Evaluation.assign name v env scope s }

/-- Operands that are free to be unknown may make values of global variables known. -/
noncomputable abbrev careful : (Value → Bool) → Policy :=
  carefulUpTo Store.Calm

variable {calm calm' : Store → Store → Prop} {free : Value → Bool} {n : Nat}

theorem careful_operand (calm : Store → Store → Prop) (free : Value → Bool) (ev : Evaluator)
    (expr : Value) (env : FrameId) (scope : Scope) (s : Store) :
    (carefulUpTo calm free).operand ev expr env scope s = (.error refusal, s) ∨
      (carefulUpTo calm free).operand ev expr env scope s = ev expr env scope s ∧
        SettledUpTo calm free expr s (ev expr env scope s) := by
  simp only [carefulUpTo]
  split
  · rename_i h
    exact .inr ⟨rfl, h⟩
  · exact .inl rfl

/-- An operand that is known is not refused. -/
theorem careful_operand_known (calm : Store → Store → Prop) {ev : Evaluator} {expr v : Value}
    {env : FrameId} {scope : Scope} {s t : Store} (h : ev expr env scope s = (.ok v, t))
    (hv : v ≠ .unknown) (hfree : free expr.erased = false) :
    (carefulUpTo calm free).operand ev expr env scope s = (.ok v, t) := by
  have hset : SettledUpTo calm free expr s (ev expr env scope s) := by
    rw [SettledUpTo, hfree, h]
    simpa using hv
  exact (if_pos hset).trans h

/-- A value is found if there is room for an evaluation and it is known. -/
theorem careful_findValue {p : Policy} {depth : Nat} {expr v : Value} {root : FrameId}
    {scope : Scope} {s t : Store} (hcalm : calm s s)
    (h : evalBy p depth expr root ⟨scope.defs, root, [], [], [], scope.loopLimit⟩ s = (.ok v, t))
    (hv : v ≠ .unknown) (hfree : free expr.erased = false) :
    Evaluation.findValue (carefulUpTo calm free) (evalBy p depth) expr root scope s =
      (.ok v, t) := by
  cases depth with
  | zero => cases h
  | succ depth =>
    have hnil (inner : Scope) : (carefulUpTo calm free).operand
        (evalBy p (depth + 1)) .nil root inner s
          = (.ok .nil, s) := by
      refine if_pos ?_
      unfold SettledUpTo
      split
      · exact hcalm
      · nofun
    rw [Evaluation.findValue, Eval.bind_apply, hnil]
    exact careful_operand_known calm (Eval.orDefault_ok .unknown h) hv hfree

/-- A value that was found is that of its expression. -/
theorem careful_found {p : Policy} {depth : Nat} {expr v : Value} {root : FrameId} {scope : Scope}
    {s t : Store}
    (h : Evaluation.findValue (carefulUpTo calm free)
      (evalBy p depth) expr root scope s = (.ok v, t)) :
    (evalBy p depth).orDefault .unknown expr root
      ⟨scope.defs, root, [], [], [], scope.loopLimit⟩ s = (.ok v, t) := by
  let inner : Scope := ⟨scope.defs, root, [], [], [], scope.loopLimit⟩
  rw [Evaluation.findValue, Eval.bind_apply] at h
  rcases careful_operand calm free (evalBy p depth) .nil root inner s with hnil | ⟨hnil, -⟩
  · rw [hnil] at h
    cases h
  rw [hnil] at h
  cases depth with
  | zero => cases h
  | succ depth =>
    rcases careful_operand calm free ((evalBy p (depth + 1)).orDefault .unknown) expr
      root inner s with
      hrun | ⟨hrun, -⟩
    · cases hrun.symm.trans h
    · exact hrun.symm.trans h

theorem careful_assign (calm : Store → Store → Prop) (free : Value → Bool)
    (name : String) (v : Value) (env : FrameId) (scope : Scope) (s : Store) :
    (carefulUpTo calm free).assign name v env scope s = (.error refusal, s) ∨
      (carefulUpTo calm free).assign name v env scope s = Evaluation.assign name v env scope s ∧
        scope.root ≤ s.frames.assigned name env scope := by
  by_cases h : s.frames.captures scope.root name env scope
  · exact .inl (if_pos h)
  · refine .inr ⟨if_neg h, ?_⟩
    rwa [← assigned_lt_iff (Nat.le_refl _), Nat.not_lt] at h

theorem careful_bind (calm : Store → Store → Prop) (free : Value → Bool) (formals : Value)
    (args : List Value) (s : Store) :
    (carefulUpTo calm free).bind formals args s = (.error refusal, s) ∨
      (carefulUpTo calm free).bind formals args s = (.ok (LambdaList.bind formals args), s) ∧
        ∀ v ∈ LambdaList.gathered .required (LambdaList.specs formals) args, v ≠ .unknown := by
  by_cases h : (LambdaList.gathered .required (LambdaList.specs formals) args).any Value.isUnknown
  · exact .inl (if_pos h)
  · refine .inr ⟨if_neg h, fun v hv hu => h (List.any_eq_true.2 ⟨v, hv, ?_⟩)⟩
    rw [hu]
    rfl

theorem careful_checks (calm : Store → Store → Prop) (free : Value → Bool) :
    (carefulUpTo calm free).Checks 0 Evaluation.assign where
  operand ev expr env scope s :=
    (careful_operand calm free ev expr env scope s).symm.imp And.left (congrArg Prod.fst)
  assign name v env scope s _ :=
    (careful_assign calm free name v env scope s).symm.imp
      (fun h => ⟨h.1, fun _ => ⟨Nat.zero_le _, nofun⟩⟩) (congrArg Prod.fst)
  bind formals args s :=
    (careful_bind calm free formals args s).symm.imp And.left (congrArg Prod.fst)
  home _ _ _ := .inl rfl

end Policy

namespace Supervision

variable {I : Store → Prop} {R : Preorder Store} {G : Definitions → Nat → Prop} {n : Nat}
  {calm calm' : Store → Store → Prop} {free : Value → Bool}

/-- Careful evaluations go through the same stores where what is calm in one is so in the other. -/
theorem careful_accompanies
    (hpassive : ∀ s t, I s → Keeps n s.frames t.frames → s.frames.size ≤ t.frames.size →
      s.closures ≤ t.closures → t.globals = s.globals → R.le s t ∧ I t)
    (hcalm : ∀ s t, I s → I t → R.le s t → calm s t → calm' s t) :
    Accompanies I R G (.carefulUpTo calm free)
      (.carefulUpTo calm' free) n (· = Policy.refusal) where
  passive := hpassive
  operand := by
    rintro ev ev' hev w expr expr' env env' scope scope' hx hat s s' hs
    obtain rfl : expr = expr' := known_iff.mp hx
    rcases Policy.careful_operand calm free ev expr env scope s with h | ⟨h, hset⟩
    · exact .first (off_refused ⟨_, congrArg Prod.fst h, rfl⟩)
    rw [h]
    obtain ⟨w', hw, hs', hr⟩ | hoff | hoff := (hev hx hat s s' hs).ends fun _ => id
    · have hset' : SettledUpTo calm' free expr s' (ev' expr env' scope' s') := by
        obtain ⟨rfl, rfl, hI, -⟩ := hs
        obtain ⟨ht, ht', hI', -⟩ := hs'
        refine hset.imp (fun hc => ?_) fun hne he => hne ?_
        · rw [ht']
          exact hcalm _ _ hI hI' hw (ht ▸ hc)
        · rw [he] at hr
          generalize (ev expr env scope _).1 = r at hr
          cases hr with
          | ok hv => rw [known_iff.mp hv]
      have h' : (Policy.carefulUpTo calm' free).operand ev' expr env' scope' s' =
          ev' expr env' scope' s' := if_pos hset'
      rw [h']
      exact .agree w' hw hs' (hr.mono fun _ _ => .inl)
    · exact .first (off_refused (Simulation.Off.eq_error id hoff))
    · exact (Simulation.Off.not_never id hoff).elim
  assign name v env scope hroot s hI hn := by
    rcases Policy.careful_assign calm free name v env scope s with h | ⟨h, hle⟩
    · exact .inr ⟨_, congrArg Prod.fst h, rfl⟩
    · have hk := assign_keeps (v := v) hn (Nat.le_trans hroot hle)
      obtain ⟨u, hu⟩ := assign_eq name v env scope s
      obtain ⟨hR, hI'⟩ := hpassive s _ hI hk (by rw [hu, Frames.size_define])
        (by rw [hu]) (by rw [hu])
      refine .inl ⟨rfl, ?_⟩
      rw [h]
      exact ⟨hR, hI', hk.size⟩
  bind formals args s hI hn := by
    rcases Policy.careful_bind calm free formals args s with h | ⟨h, -⟩
    · exact .inr ⟨_, congrArg Prod.fst h, rfl⟩
    · refine .inl ⟨rfl, ?_⟩
      rw [h]
      exact ⟨R.le_refl s, hI, hn⟩
  home _ _ s hI hn := .inl ⟨rfl, R.le_refl s, hI, hn⟩
  refused_depth f hf := by rw [hf]; exact nofun

end Supervision

namespace Simulation

/-- Two careful evaluations, one of which may know more than the other. -/
noncomputable def careful (calm calm' : Store → Store → Prop) (free : Value → Bool)
    (C : Course True) (G : Definitions → Nat → Prop) : Simulation :=
  paired C .none (.carefulUpTo calm free) (.carefulUpTo calm' free) (SameScopeIn G) never

variable {calm calm' : Store → Store → Prop} {free : Value → Bool} {C : Course True}
  {G : Definitions → Nat → Prop} {w : Pairing × C.State}

theorem careful_off {α : Type} {refused : Fault → Prop} {given : α → Prop}
    {r : Except Fault α × Store} {s : Store} (h : r = (.error Policy.refusal, s)) :
    (careful calm calm' free C G).Off refused given r.1 := by
  rw [h]
  exact .inr trivial

theorem careful_aligned (hG : ∀ defs limit, G defs limit → defs.IsPlain)
    (hcalm : ∀ (w : Pairing × C.State) s s' t t', (careful calm calm' free C G).store w s s' →
      calm s t → calm' s' t' → (careful calm calm' free C G).store w t t') :
    (careful calm calm' free C G).Aligned := by
  refine sameScope_aligned hG rfl rfl ?assign ?operand ?bind
  case assign =>
    intro w i i' c c' v v' hat hv name s s' hs
    rcases Policy.careful_assign calm free name v i c s with h | ⟨h, -⟩
    · exact .first (careful_off h)
    rcases Policy.careful_assign calm' free name v' i' c' s' with h' | ⟨h', -⟩
    · exact .second (careful_off h')
    rw [h, h']
    exact paired_assign hat hv name s s' hs
  case operand =>
    exact fun ev ev' => settled_operand (Policy.careful_operand calm free)
      (Policy.careful_operand calm' free) hcalm
  case bind =>
    intro w f f' args args' hf ha s s' hs
    have hspecs := specs_eq (S := careful calm calm' free C G) (w := w) hf
    rcases Policy.careful_bind calm free f args s with h | ⟨h, hk⟩
    · exact .first (careful_off h)
    rcases Policy.careful_bind calm' free f' args' s' with h' | ⟨h', hk'⟩
    · exact .second (careful_off h')
    rw [h, h', LambdaList.bind, LambdaList.bind, ← hspecs]
    rw [← hspecs] at hk'
    exact .agree w le_rfl hs (.ok (LambdaList.bindSpecs_loose (fun _ => ⟨hk, hk'⟩) ha))

end Simulation

end PatternLint
