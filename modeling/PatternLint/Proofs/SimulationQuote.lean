import PatternLint.Proofs.SimulationControl

/-! Quoted data, closures, templates and structured regexps of two evaluations in step. -/

namespace PatternLint.Simulation

open Evaluation

variable {S : Simulation} {ev ev' : Evaluator} {w : S.World} {env env' : FrameId}
  {scope scope' : Scope} {v v' : Value} {args args' : List Value}

theorem isUnquote_eq (h : S.Known w v v') : isUnquote v = isUnquote v' := by
  cases h with
  | list h =>
    cases h with
    | nil => rfl
    | cons hm h =>
      cases hm with
      | sym name =>
        cases h with
        | nil => rfl
        | cons _ h =>
          cases h with
          | nil => by_cases h1 : name = "," <;> by_cases h2 : name = ",@" <;> simp_all [isUnquote]
          | cons _ _ => simp [isUnquote]
      | _ => rfl
  | _ => rfl

theorem handles_quote : S.Handles quote quote := by
  intro w args args' env env' scope scope' ha hat
  cases ha with
  | nil => exact .ret .unknown
  | cons hv ha =>
    cases ha with
    | cons _ _ => exact .ret .unknown
    | nil =>
      simp only [quote, isUnquote_eq hv]
      refine .ret ?_
      split
      · exact .unknown
      · exact hv

variable (hS : S.Sound)
include hS

theorem handles_function : S.Handles function function := by
  intro w args args' env env' scope scope' ha hat
  cases ha with
  | nil => exact .ret .unknown
  | @cons v v' rest rest' hv ha =>
    cases ha with
    | cons _ _ =>
      rw [function, function]
      · exact .ret .unknown
      all_goals simp
    | nil =>
      by_cases hl : ∃ formals body, v = .list (lambdaMark :: formals :: body)
      · obtain ⟨formals, body, rfl⟩ := hl
        match hv with
        | .list (.cons (.sym _) (.cons hf hb)) =>
          exact (hS.closure hat.env hf hb).mono (fun _ h => h.elim) fun _ _ _ h => h
      · rw [function.eq_2 env scope v fun f b h => hl ⟨f, b, h⟩, function.eq_2 env' scope' v']
        · rw [isUnquote_eq hv]
          refine .ret ?_
          split
          · exact .unknown
          · exact hv
        · rintro f b rfl
          match hv with
          | .list (.cons (.sym _) (.cons _ _)) => exact hl ⟨_, _, rfl⟩

theorem handles_lambda : S.Handles lambda lambda := by
  intro w args args' env env' scope scope' ha hat
  cases ha with
  | nil => exact .ret .unknown
  | cons hf hb => exact (hS.closure hat.env hf hb).mono (fun _ h => h.elim) fun _ _ _ h => h

variable (hev : S.Follows ev ev')
include hev

theorem expand_follows_all :
    (∀ t, ∀ ⦃w t'⦄, S.Known w t t' → S.At w env env' scope scope' →
      S.Sim w isUnknown S.Known (expand ev env scope t) (expand ev' env' scope' t')) ∧
    (∀ items, ∀ ⦃w items'⦄, S.AllKnown w items items' → S.At w env env' scope scope' →
      S.Sim w isUnknown S.Known (expandList ev env scope items)
        (expandList ev' env' scope' items')) ∧
    ∀ out items, ∀ ⦃w out' items'⦄, S.AllKnown w out out' → S.AllKnown w items items' →
      S.At w env env' scope scope' →
      S.Sim w isUnknown S.Known (expandItems ev env scope out items)
        (expandItems ev' env' scope' out' items') := by
  apply expand.mutual_induct
  case case1 =>
    intro items ih w t' h hat
    cases h with
    | list h =>
      rw [expand, expand]
      exact ih h hat
  case case2 =>
    intro items ih w t' h hat
    cases h with
    | vec h =>
      rw [expand, expand]
      refine (ih h hat).known rfl (fun _ => .unknown) fun w' hw v v' hv => ?_
      exact (Sim.ofExcept (A := S.AllKnown) hv.asList).seq fun w'' hw' _ _ hvs => .ret (.vec hvs)
  case case3 =>
    intro items tail ih iht w t' h hat
    cases h with
    | dotted h ht =>
      rw [expand, expand]
      refine (ih h hat).bind (fun w' hw v v' hv => ?_) ?_ ?_
      · refine (iht (hS.known_mono hw ht) (hS.at_mono hw hat)).bind
          (fun w'' hw' r r' hr => ?_) ?_ ?_
        · rw [hv.isUnknown_eq, hr.isUnknown_eq]
          split
          · exact .ret .unknown
          · refine (Sim.ofExcept (A := S.AllKnown) (hS.known_mono hw' hv).asList).seq
              fun u hu vs vs' hvs => ?_
            exact .ret (.prepend hvs (hS.known_mono hu hr))
        · rintro ht _ rfl s
          rw [show Value.unknown.isUnknown = true from rfl, Bool.or_true]
          exact ⟨ht, rfl⟩
        · rintro ht _ rfl s
          rw [show Value.unknown.isUnknown = true from rfl, Bool.or_true]
          exact ⟨ht, rfl⟩
      · rintro ht _ rfl s
        exact off_bind ht fun r t => ⟨ht, rfl⟩
      · rintro ht _ rfl s
        exact off_bind ht fun r t => ⟨ht, rfl⟩
  case case4 =>
    intro v h1 h2 h3 w t' h hat
    rw [expand.eq_4 ev env scope v h1 h2 h3, expand.eq_4 ev' env' scope' t']
    · exact .ret h
    · rintro items rfl
      cases h
      exact h1 _ rfl
    · rintro items rfl
      cases h
      exact h2 _ rfl
    · rintro items tail rfl
      cases h
      exact h3 _ _ rfl
  case case5 =>
    intro tail w items' h hat
    match h with
    | .cons (.sym _) _ =>
      rw [expandList, expandList]
      exact .ret .unknown
  case case6 =>
    intro tail w items' h hat
    match h with
    | .cons (.sym _) _ =>
      rw [expandList, expandList]
      exact .ret .unknown
  case case7 =>
    intro items h1 h2 ih w items' h hat
    rw [expandList.eq_3 ev env scope items h1 h2, expandList.eq_3 ev' env' scope' items']
    · exact ih .nil h hat
    · rintro tail rfl
      match h with
      | .cons (.sym _) _ => exact h1 _ rfl
    · rintro tail rfl
      match h with
      | .cons (.sym _) _ => exact h2 _ rfl
  case case8 =>
    intro out w out' items' ho h hat
    cases h
    rw [expandItems, expandItems]
    exact .ret (.ofList (List.rel_reverse ho))
  case case9 =>
    intro out form w out' items' ho h hat
    match h with
    | .cons (.sym _) (.cons hf .nil) =>
      rw [expandItems, expandItems]
      refine (hev hf hat).bind (fun w' hw v v' hv => ?_) ?_ ?_
      · rw [hv.isUnknown_eq]
        refine .ret ?_
        split
        · exact .unknown
        · exact .prepend (List.rel_reverse (hS.allKnown_mono hw ho)) hv
      · rintro ht _ rfl s
        exact ⟨ht, rfl⟩
      · rintro ht _ rfl s
        exact ⟨ht, rfl⟩
  case case10 =>
    intro out form rest ih w out' items' ho h hat
    match h with
    | .cons (.list (.cons (.sym _) (.cons hf .nil))) hr =>
      rw [expandItems, expandItems]
      refine (hev hf hat).known rfl (fun _ => .unknown) fun w' hw v v' hv => ?_
      refine .withResult hv.asList (fun more more' hm => ?_) (.ret .unknown)
      exact ih more (MatchesAll.append (List.rel_reverse hm) (hS.allKnown_mono hw ho))
        (hS.allKnown_mono hw hr) (hS.at_mono hw hat)
  case case11 =>
    intro out item rest h1 h2 ih ihr w out' items' ho h hat
    match h with
    | @List.Forall₂.cons _ _ _ _ item' _ rest' hx hr =>
      rw [expandItems.eq_4 ev env scope out item rest h1 h2,
        expandItems.eq_4 ev' env' scope' out' item' rest']
      · refine (ih hx hat).known rfl (fun _ => .unknown) fun w' hw v v' hv => ?_
        exact ihr v (.cons hv (hS.allKnown_mono hw ho)) (hS.allKnown_mono hw hr)
          (hS.at_mono hw hat)
      · rintro form rfl rfl
        match hx, hr with
        | .sym _, .cons _ .nil => exact h1 _ rfl rfl
      · rintro form rfl
        match hx with
        | .list (.cons (.sym _) (.cons _ .nil)) => exact h2 _ rfl

theorem expand_follows (h : S.Known w v v') (hat : S.At w env env' scope scope') :
    S.Sim w isUnknown S.Known (expand ev env scope v) (expand ev' env' scope' v') :=
  (expand_follows_all hS hev).1 v h hat

theorem handles_template : S.Handles (template ev) (template ev') := by
  intro w args args' env env' scope scope' ha hat
  cases ha with
  | nil => exact .ret .unknown
  | cons hv ha =>
    cases ha with
    | cons _ _ => exact .ret .unknown
    | nil =>
      refine (expand_follows hS hev hv hat).bind (fun w' hw v v' hv => ?_) ?_ ?_
      · rw [hv.isNil_eq]
        refine .ret ?_
        split
        · exact .nil
        · exact hv
      · rintro ht _ rfl s
        exact ⟨ht, rfl⟩
      · rintro ht _ rfl s
        exact ⟨ht, rfl⟩

end PatternLint.Simulation
