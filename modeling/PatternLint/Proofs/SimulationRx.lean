import PatternLint.Proofs.SimulationControl

/-! Structured regexps in two evaluations in step. -/

namespace PatternLint.Simulation

open Evaluation

variable {S : Simulation} {ev ev' : Evaluator} {w : S.World} {env env' : FrameId}
  {scope scope' : Scope} {v v' : Value} {args args' : List Value}

theorem isDynamicClause_eq (h : S.Known w v v') : isDynamicClause v = isDynamicClause v' := by
  cases h with
  | list h =>
    cases h with
    | nil => rfl
    | cons hm _ => cases hm <;> rfl
  | _ => rfl

theorem written_error (f : Fault) :
    written (.error f) = if f.handling = .rx then pure .unknown else throw f := by
  cases f <;> rfl

theorem written_follows {r r' : Except Fault String} (h : Agrees Eq r r') :
    S.Sim w isUnknown S.Known (written r) (written r') := by
  cases h with
  | ok h => exact h ▸ .ret (.str _)
  | error hfg =>
    rw [written_error, written_error, hfg]
    split
    · exact .ret .unknown
    · exact .fail hfg

section Clauses

variable {name : String} {arg : Value} (he : name ≠ "eval")
include he

/-- A form with any name but `eval` at its head. -/
theorem resolve_named :
    resolveClauses ev env scope (.list (.sym name :: args)) =
      if name ∈ characterClauses then pure (.list (.sym name :: args))
      else if name ∈ dynamicClauses then
        match args with
        | [arg] => ev arg env scope >>= fun v =>
          match v with
          | .str text => pure (.list [.sym name, .str text])
          | _ => pure .unknown
        | _ => pure .unknown
      else
        resolveAll ev env scope [] args >>= fun r =>
          match r with
          | none => pure .unknown
          | some args => pure (.list (.sym name :: args)) := by
  rcases args with _ | ⟨arg, _ | ⟨arg', args⟩⟩ <;> rw [resolveClauses] <;> first | rfl | simp [he]

theorem resolve_character (hc : name ∈ characterClauses) :
    resolveClauses ev env scope (.list (.sym name :: args)) = pure (.list (.sym name :: args)) := by
  rw [resolve_named he, if_pos hc]

theorem resolve_dynamic (hc : name ∉ characterClauses) (hd : name ∈ dynamicClauses) :
    resolveClauses ev env scope (.list [.sym name, arg]) = (ev arg env scope >>= fun v =>
      match v with
      | .str text => pure (.list [.sym name, .str text])
      | _ => pure .unknown) := by
  rw [resolve_named he, if_neg hc, if_pos hd]

theorem resolve_dynamic_many (hc : name ∉ characterClauses) (hd : name ∈ dynamicClauses)
    (ha : ∀ arg, args = [arg] → False) :
    resolveClauses ev env scope (.list (.sym name :: args)) = pure .unknown := by
  rw [resolve_named he, if_neg hc, if_pos hd]
  rcases args with _ | ⟨arg, _ | ⟨arg', args⟩⟩
  · rfl
  · exact (ha arg rfl).elim
  · rfl

theorem resolve_clause (hc : name ∉ characterClauses) (hd : name ∉ dynamicClauses) :
    resolveClauses ev env scope (.list (.sym name :: args)) =
      (resolveAll ev env scope [] args >>= fun r =>
        match r with
        | none => pure .unknown
        | some args => pure (.list (.sym name :: args))) := by
  rw [resolve_named he, if_neg hc, if_neg hd]

end Clauses

variable (hS : S.Sound) (hev : S.Follows ev ev')
include hS hev

theorem resolve_follows_all :
    (∀ form, ∀ ⦃w form'⦄, S.Known w form form' → S.At w env env' scope scope' →
      S.Sim w isUnknown S.Known (resolveClauses ev env scope form)
        (resolveClauses ev' env' scope' form')) ∧
    ∀ out forms, ∀ ⦃w out' forms'⦄, S.AllKnown w out out' → S.AllKnown w forms forms' →
      S.At w env env' scope scope' →
      S.Sim w (· = none) (fun w => Option.Rel (S.AllKnown w)) (resolveAll ev env scope out forms)
        (resolveAll ev' env' scope' out' forms') := by
  apply resolveClauses.mutual_induct
  case case1 =>
    intro arg w form' h hat
    cases h with
    | list h =>
      obtain _ | ⟨hname, _ | ⟨ha, _ | _⟩⟩ := h
      cases hname
      rw [resolveClauses, resolveClauses]
      refine (hev ha hat).bind (fun w' hw v v' hv => ?_) ?_ ?_
      · rw [isDynamicClause_eq hv]
        refine .ret ?_
        split
        · exact .unknown
        · exact hv
      · rintro ht _ rfl s
        exact ⟨ht, rfl⟩
      · rintro ht _ rfl s
        exact ⟨ht, rfl⟩
  case case2 =>
    intro args h1 w form' h hat
    cases h with
    | list h =>
      obtain _ | ⟨hname, ha⟩ := h
      cases hname
      rw [resolveClauses, resolveClauses]
      · exact .ret .unknown
      · rintro arg rfl
        obtain _ | ⟨_, _ | _⟩ := ha
        exact h1 _ rfl
      · exact h1
  case case3 =>
    intro name args _ he hc w form' h hat
    cases h with
    | list h =>
      obtain _ | ⟨hname, ha⟩ := h
      cases hname
      rw [resolve_character he hc, resolve_character he hc]
      exact .ret (.list (.cons (.sym _) ha))
  case case4 =>
    intro name he hc hd arg _ w form' h hat
    cases h with
    | list h =>
      obtain _ | ⟨hname, _ | ⟨ha, _ | _⟩⟩ := h
      cases hname
      rw [resolve_dynamic he hc hd, resolve_dynamic he hc hd]
      refine (hev ha hat).unless rfl rfl rfl fun w' hw v v' hv => ?_
      cases hv with
      | str text => exact .ret (.list (.cons (.sym _) (.cons (.str _) .nil)))
      | _ => exact .ret .unknown
  case case5 =>
    intro name args _ he hc hd h1 w form' h hat
    cases h with
    | list h =>
      obtain _ | ⟨hname, ha⟩ := h
      cases hname
      rw [resolve_dynamic_many he hc hd h1, resolve_dynamic_many he hc hd]
      · exact .ret .unknown
      · rintro arg rfl
        obtain _ | ⟨_, _ | _⟩ := ha
        exact h1 _ rfl
  case case6 =>
    intro name args _ he hc hd ih w form' h hat
    cases h with
    | list h =>
      obtain _ | ⟨hname, ha⟩ := h
      cases hname
      rw [resolve_clause he hc hd, resolve_clause he hc hd]
      refine (ih .nil ha hat).unless rfl rfl rfl fun w' hw r r' hr => ?_
      cases hr with
      | none => exact .ret .unknown
      | some hr => exact .ret (.list (.cons (.sym _) hr))
  case case7 =>
    intro head args h1 h2 h3 ih w form' h hat
    cases h with
    | list h =>
      obtain _ | ⟨hh, ha⟩ := h
      rename_i head' args'
      have h3' : ∀ name, head' = .sym name → False := by
        rintro name rfl
        cases hh
        exact h3 _ rfl
      rw [resolveClauses.eq_5 ev env scope head args h2 h3 h1,
        resolveClauses.eq_5 ev' env' scope' head' args' (h3' _) h3' fun _ h _ => h3' _ h]
      refine (ih .nil ha hat).unless rfl rfl rfl fun w' hw r r' hr => ?_
      cases hr with
      | none => exact .ret .unknown
      | some hr => exact .ret (.list (.cons (hS.known_mono hw hh) hr))
  case case8 =>
    intro form h1 w form' h hat
    rw [resolveClauses.eq_6 ev env scope form h1, resolveClauses.eq_6 ev' env' scope' form']
    · exact .ret h
    · rintro head args rfl
      cases h with
      | list h =>
        cases h
        exact h1 _ _ rfl
  case case9 =>
    intro out w out' forms' ho h hat
    cases h
    rw [resolveAll, resolveAll]
    exact .ret (.some (List.rel_reverse ho))
  case case10 =>
    intro out form rest ih ihr w out' forms' ho h hat
    obtain _ | ⟨hf, hr⟩ := h
    rw [resolveAll, resolveAll]
    refine (ih hf hat).known rfl (fun _ => .none) fun w' hw v v' hv => ?_
    exact ihr v (.cons hv (hS.allKnown_mono hw ho)) (hS.allKnown_mono hw hr) (hS.at_mono hw hat)

theorem handles_rx : S.Handles (rx ev) (rx ev') := by
  intro w args args' env env' scope scope' ha hat
  refine ((resolve_follows_all hS hev).2 [] args .nil ha hat).unless rfl rfl rfl
    fun w' hw r r' hr => ?_
  cases hr with
  | none => exact .ret .unknown
  | some hr => exact written_follows (hS.rxForms hr)

def someUnknown (vs : List Value) : Prop := vs.any Value.isUnknown = true

/-- Operands that have to be known, though all of them are evaluated. -/
theorem operands_known (ha : S.AllKnown w args args') (hat : S.At w env env' scope scope') :
    S.Sim w someUnknown S.AllKnown (ev.operands args env scope)
      (ev'.operands args' env' scope') := by
  unfold Evaluator.operands
  induction args generalizing w args' with
  | nil => cases ha; exact .ret .nil
  | cons arg rest ih =>
    cases ha with
    | cons hx hr =>
      simp only [List.mapM_cons]
      refine (hev hx hat).bind (fun w' hw v v' hv => ?_) ?_ ?_
      · refine (ih (hS.allKnown_mono hw hr) (hS.at_mono hw hat)).bind
          (fun w'' hw' vs vs' hvs => .ret (.cons (hS.known_mono hw' hv) hvs)) ?_ ?_
        · intro ht vs hvs s
          exact ⟨ht, by simp_all [someUnknown]⟩
        · intro ht vs hvs s
          exact ⟨ht, by simp_all [someUnknown]⟩
      · rintro ht _ rfl s
        exact off_bind ht fun _ _ => ⟨ht, rfl⟩
      · rintro ht _ rfl s
        exact off_bind ht fun _ _ => ⟨ht, rfl⟩

theorem handles_rxToString : S.Handles (rxToString ev) (rxToString ev') := by
  intro w args args' env env' scope scope' ha hat
  unfold rxToString
  have hempty : args.isEmpty = args'.isEmpty := by cases ha <;> rfl
  rw [hempty, List.Forall₂.length_eq ha]
  split
  · exact .ret .unknown
  · refine (operands_known hS hev ha hat).bind (fun w' hw vs vs' hvs => ?_) ?_ ?_
    · cases hvs with
      | nil => exact .ret .unknown
      | cons hf hfl =>
        dsimp only
        rw [hf.isUnknown_eq, MatchesAll.any_eq (fun _ _ h => h.isUnknown_eq) hfl]
        split
        · exact .ret .unknown
        · refine ((resolve_follows_all hS hev).1 _ hf (hS.at_mono hw hat)).known rfl
            (fun _ => .unknown) fun w'' hw' form form' hform => ?_
          rw [MatchesAll.any_eq (fun _ _ h => congrArg (!·) h.isNil_eq) hfl]
          exact written_follows (hS.rxForm hform _)
    · intro ht vs hvs s
      cases vs with
      | nil => cases hvs
      | cons f fs =>
        have : (f.isUnknown || fs.any Value.isUnknown) = true := hvs
        simp only [this, if_true]
        exact ⟨ht, rfl⟩
    · intro ht vs hvs s
      cases vs with
      | nil => cases hvs
      | cons f fs =>
        have : (f.isUnknown || fs.any Value.isUnknown) = true := hvs
        simp only [this, if_true]
        exact ⟨ht, rfl⟩

end PatternLint.Simulation
