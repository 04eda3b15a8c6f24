import PatternLint.Proofs.SimulationControl

/-! Calls of functions in two evaluations in step. -/

namespace PatternLint.Simulation

open Evaluation

variable {S : Simulation} {ev ev' : Evaluator} {w : S.World} {env env' : FrameId}
  {scope scope' : Scope} {v v' : Value} {args args' : List Value}

theorem specOf_eq (h : S.Known w v v') : LambdaList.Spec.of v = LambdaList.Spec.of v' := by
  cases h with
  | list h =>
    cases h with
    | nil => rfl
    | cons hm _ => cases hm <;> rfl
  | _ => rfl

theorem specs_eq (h : S.Known w v v') : LambdaList.specs v = LambdaList.specs v' := by
  cases h with
  | list h =>
    simp only [LambdaList.specs]
    induction h with
    | nil => rfl
    | cons h _ ih => simp only [List.map_cons, specOf_eq h, ih]
  | _ => rfl

theorem names_eq (h : S.Known w v v') : LambdaList.names v = LambdaList.names v' := by
  simp only [LambdaList.names, specs_eq h]

theorem callPrimitive_follows {f : Primitive} (hf : f.Respects (S.labels w))
    (ha : S.AllKnown w args args') :
    S.Sim w isUnknown S.Known (callPrimitive f args) (callPrimitive f args') := by
  simp only [callPrimitive]
  rw [MatchesAll.any_eq (fun _ _ h => h.isUnknown_eq) ha]
  have hr := hf args args' ha
  generalize f args = r, f args' = r' at hr
  split
  · exact .ret .unknown
  · cases hr with
    | ok hv => exact .ret hv
    | @error e e' he =>
      have hc : e.isContained = e'.isContained := by
        rw [Bool.eq_iff_iff, Fault.isContained_iff, Fault.isContained_iff, he]
      dsimp only
      rw [hc]
      split
      · exact .ret .unknown
      · exact .fail he

inductive SameCallee (S : Simulation) (w : S.World) : Callee → Callee → Prop
  | closure {f f' : Value} {b b' : List Value} {i i' : Option FrameId} (hf : S.Known w f f')
      (hb : S.AllKnown w b b') (hi : Option.Rel (S.frames w) i i') :
      SameCallee S w (.closure f b i) (.closure f' b' i')
  | defined (name : String) {d : Definition} (hf : S.Known w d.formals d.formals)
      (hb : S.AllKnown w d.body d.body) : SameCallee S w (.defined name d) (.defined name d)
  | primitive {f : Primitive} (hf : ∀ u, f.Respects (S.labels u)) :
      SameCallee S w (.primitive f) (.primitive f)

variable (hS : S.Sound)
include hS

theorem callee_matches (h : S.Known w v v') (hs : S.scope w scope scope') :
    Option.Rel (SameCallee S w) (callee? scope v) (callee? scope' v') := by
  cases h with
  | sym name =>
    simp only [callee?, ← (hS.scope_eq hs).1]
    split
    · rename_i d hd
      have := hS.scope_defs hs _ d (.inl hd)
      exact .some (.defined _ this.1 this.2)
    · cases hp : Primitive.named? (scope.defs.resolve name) with
      | none => exact .none
      | some f => exact .some (.primitive fun u => hS.primitive u _ f hp)
  | closure hf hb hi _ => exact .some (.closure hf hb hi)
  | list h =>
    cases h with
    | nil => exact .none
    | cons hm h =>
      cases hm with
      | sym name =>
        by_cases hn : name = "lambda"
        · subst hn
          cases h with
          | nil => exact .none
          | cons hf hb => exact .some (.closure hf hb .none)
        · have none_of : ∀ c items, callee? c (.list (.sym name :: items)) = none := by
            intro c items
            simp only [callee?]
            split <;> simp_all
          rw [none_of, none_of]
          exact .none
      | _ => exact .none
  | _ => exact .none

theorem callee_mono {w' : S.World} {f f' : Callee} (hw : w ≤ w') (h : SameCallee S w f f') :
    SameCallee S w' f f' := by
  cases h with
  | closure hf hb hi =>
    refine .closure (hS.known_mono hw hf) (hS.allKnown_mono hw hb) ?_
    cases hi with
    | none => exact .none
    | some hi => exact .some (hS.frames_mono hw _ _ hi)
  | defined name hf hb => exact .defined name (hS.known_mono hw hf) (hS.allKnown_mono hw hb)
  | primitive hf => exact .primitive hf

variable (hev : S.Follows ev ev')
include hev

/-- A definition runs in frames of its own, so the scopes only matter once it has been entered. -/
theorem applyDefinition_enters {name : String} {d : Definition} (hf : S.Known w d.formals d.formals)
    (hb : S.AllKnown w d.body d.body) (ha : List.Forall₂ (S.Loosely w) args args')
    (hexpanding : scope.expanding = scope'.expanding)
    (henter : ∀ ⦃w' i i'⦄, w ≤ w' → S.own w' i i' →
      S.scope w' (scope.entering name i (LambdaList.names d.formals))
        (scope'.entering name i' (LambdaList.names d.formals))) :
    S.Sim w isUnknown S.Known (applyDefinition S.first ev name d args scope)
      (applyDefinition S.second ev' name d args' scope') := by
  simp only [applyDefinition, hexpanding]
  split
  · exact .ret .unknown
  · refine (hS.newFrame .none .nil).seq fun w₁ h₁ i i' hi => ?_
    refine (hS.bind (hS.known_mono h₁ hf) (hS.loosely_all_mono h₁ ha)).seq fun w₂ h₂ b b' hbs => ?_
    have hi := hS.own_mono h₂ hi
    refine (hS.newFrame (.some (hS.own_frames hi)) hbs).seq fun w₃ h₃ j j' hj => ?_
    have h₁₃ := le_trans (le_trans h₁ h₂) h₃
    exact handles_body hS hev (hS.allKnown_mono h₁₃ hb)
      ⟨hS.own_frames hj, henter h₁₃ (hS.own_mono h₃ hi)⟩

theorem applyDefinition_follows {name : String} {d : Definition}
    (hf : S.Known w d.formals d.formals)
    (hb : S.AllKnown w d.body d.body) (ha : List.Forall₂ (S.Loosely w) args args')
    (hs : S.scope w scope scope') :
    S.Sim w isUnknown S.Known (applyDefinition S.first ev name d args scope)
      (applyDefinition S.second ev' name d args' scope') :=
  applyDefinition_enters hS hev hf hb ha (hS.scope_eq hs).2.1 fun _ _ _ hw hi =>
    hS.entering (hS.scope_mono hw hs) hi _ _

theorem applyClosure_follows {f f' : Value} {b b' : List Value} {i i' : Option FrameId}
    (hf : S.Known w f f') (hb : S.AllKnown w b b') (hi : Option.Rel (S.frames w) i i')
    (ha : List.Forall₂ (S.Loosely w) args args') (hs : S.scope w scope scope') :
    S.Sim w isUnknown S.Known (applyClosure S.first ev f b i args scope)
      (applyClosure S.second ev' f' b' i' args' scope') := by
  simp only [applyClosure]
  refine (hS.home hi hs).seq fun w₁ h₁ j j' hj => ?_
  refine (hS.bind (hS.known_mono h₁ hf) (hS.loosely_all_mono h₁ ha)).seq fun w₂ h₂ bs bs' hbs => ?_
  refine (hS.newFrame (.some (hS.frames_mono h₂ _ _ hj)) hbs).seq fun w₃ h₃ k k' hk => ?_
  have h₁₃ := le_trans (le_trans h₁ h₂) h₃
  rw [names_eq hf]
  exact handles_body hS hev (hS.allKnown_mono h₁₃ hb)
    ⟨hS.own_frames hk, hS.binding (hS.scope_mono h₁₃ hs) _⟩

theorem callee_apply_follows {f f' : Callee} (hf : SameCallee S w f f')
    (ha : S.AllKnown w args args') (hs : S.scope w scope scope') :
    S.Sim w isUnknown S.Known (f.apply S.first ev args scope)
      (f'.apply S.second ev' args' scope') := by
  have ha' : List.Forall₂ (S.Loosely w) args args' := ha.imp fun _ _ => .inl
  cases hf with
  | closure hf hb hi => exact applyClosure_follows hS hev hf hb hi ha' hs
  | defined name hf hb => exact applyDefinition_follows hS hev hf hb ha' hs
  | primitive hf => exact callPrimitive_follows (hf w) ha

theorem expandMacro_follows {name : String} {d : Definition} (hf : S.Known w d.formals d.formals)
    (hb : S.AllKnown w d.body d.body) (ha : S.AllKnown w args args')
    (hat : S.At w env env' scope scope') :
    S.Sim w isUnknown S.Known (expandMacro S.first ev name d args env scope)
      (expandMacro S.second ev' name d args' env' scope') := by
  refine (applyDefinition_follows hS hev hf hb (ha.imp fun _ _ => .inl) hat.scope).known rfl
    (fun _ => .unknown) fun w' hw v v' hv => ?_
  have hat := hS.at_mono hw hat
  exact hev hv ⟨hat.env, hS.expandingToo hat.scope name⟩

theorem call_follows (ha : S.AllKnown w args args') (hat : S.At w env env' scope scope') :
    S.Sim w (· = none)
      (fun w => Option.Rel fun a b => SameCallee S w a.1 b.1 ∧ S.AllKnown w a.2 b.2)
      (call? ev args env scope) (call? ev' args' env' scope') := by
  refine (known_follows hS hev ha hat).unless rfl rfl rfl fun w' hw r r' hr => ?_
  cases hr with
  | none => exact .ret .none
  | some hr =>
    cases hr with
    | nil => exact .ret .none
    | cons hf hvs =>
      have hc := callee_matches hS hf (hS.scope_mono hw hat.scope)
      refine .ret ?_
      generalize callee? scope _ = c, callee? scope' _ = c' at hc
      cases hc with
      | none => exact .none
      | some hc => exact .some ⟨hc, hvs⟩

end PatternLint.Simulation
