import PatternLint.Proofs.SimulationApply

/-! Forms that call functions, in two evaluations in step. -/

namespace PatternLint.Simulation

open Evaluation

variable {S : Simulation} {ev ev' : Evaluator} {w : S.World} {env env' : FrameId}
  {scope scope' : Scope} {v v' : Value} {args args' : List Value} {f f' : Callee}

/-- Calls with one argument each. -/
theorem singles_match (h : S.AllKnown w args args') :
    List.Forall₂ (S.AllKnown w) (args.map ([·])) (args'.map ([·])) := by
  induction h with
  | nil => exact .nil
  | cons h _ ih => exact .cons (.cons h .nil) ih

theorem zipWith_cons_matches {seqs seqs' : List (List Value)} (h : S.AllKnown w args args')
    (hs : List.Forall₂ (S.AllKnown w) seqs seqs') :
    List.Forall₂ (S.AllKnown w) (List.zipWith (· :: ·) args seqs)
      (List.zipWith (· :: ·) args' seqs') := by
  induction h generalizing seqs seqs' with
  | nil => exact .nil
  | cons h _ ih =>
    cases hs with
    | nil => exact .nil
    | cons hs hss => exact .cons (.cons h hs) (ih hss)

/-- The n-th call has the n-th items of all sequences, as many as the shortest of them has. -/
theorem transpose_matches {seqs seqs' : List (List Value)}
    (h : List.Forall₂ (S.AllKnown w) seqs seqs') :
    List.Forall₂ (S.AllKnown w) (transpose seqs) (transpose seqs') := by
  induction h with
  | nil => exact .nil
  | cons h hs ih =>
    cases hs with
    | nil => exact singles_match h
    | cons _ _ => exact zipWith_cons_matches h ih

/-- All arguments are sequences on both sides, or the first that is none is the same. -/
theorem asSequences_match (h : S.AllKnown w args args') :
    Agrees (List.Forall₂ (S.AllKnown w)) (args.mapM Value.asSequence)
      (args'.mapM Value.asSequence) := by
  induction h with
  | nil => exact .ok .nil
  | @cons x y xs ys h _ ih =>
    have hx := h.asSequence
    simp only [List.mapM_cons]
    generalize x.asSequence = r, y.asSequence = r' at hx
    generalize xs.mapM Value.asSequence = t, ys.mapM Value.asSequence = t' at ih
    cases hx with
    | error hf => exact .error hf
    | ok hx =>
      cases ih with
      | error hf => exact .error hf
      | ok hxs => exact .ok (.cons hx hxs)

/-- Results decide on both sides alike which items are kept. -/
theorem kept_matches {items items' results results' : List Value} (whenTrue : Bool)
    (hi : S.AllKnown w items items') (hr : S.AllKnown w results results') :
    S.AllKnown w (((items.zip results).filter fun p => p.2.isNil != whenTrue).map (·.1))
      (((items'.zip results').filter fun p => p.2.isNil != whenTrue).map (·.1)) := by
  induction hi generalizing results results' with
  | nil => exact .nil
  | cons h _ ih =>
    cases hr with
    | nil => exact .nil
    | cons hx hr =>
      simp only [List.zip_cons_cons, List.filter_cons, hx.isNil_eq]
      split
      · exact .cons h (ih hr)
      · exact ih hr

variable (hS : S.Sound)
include hS

/-- Each way of collecting gives matching values from matching results. -/
theorem collect_matches {results results' : List Value} (c : Collection)
    (ha : S.AllKnown w args args') (hr : S.AllKnown w results results') :
    Agrees (S.Known w) (c.collect args results) (c.collect args' results') := by
  cases c with
  | items => exact Matches.ofItems hr
  | spliced => exact hS.primitive w "append" _ rfl _ _ (MatchesAll.append hr (.cons .nil .nil))
  | text =>
    exact hS.primitive w "concat" _ rfl _ _ (hr.intersperse (.getD (ha.getElem? 1) (.str "")))
  | kept whenTrue =>
    have hseq : Matches (S.labels w) (args.headD .nil) (args'.headD .nil) := by
      cases ha with
      | nil => exact .nil
      | cons h _ => exact h
    have hseq := hseq.asSequence
    simp only [Collection.collect]
    generalize (args.headD .nil).asSequence = r, (args'.headD .nil).asSequence = r' at hseq
    cases hseq with
    | error hf => exact .error hf
    | ok hi => exact Matches.ofItems (kept_matches whenTrue hi hr)

variable (hev : S.Follows ev ev')
include hev

/-- Calls are made one after the other, each in the world that those before it have reached. -/
theorem resultsOnto_follows {calls calls' : List (List Value)} (hf : SameCallee S w f f')
    (ha : S.AllKnown w args args') (hc : List.Forall₂ (S.AllKnown w) calls calls')
    (hs : S.scope w scope scope') :
    S.Sim w (· = none) (fun w => Option.Rel (S.AllKnown w))
      (resultsOnto S.first ev f args scope calls)
      (resultsOnto S.second ev' f' args' scope' calls') := by
  induction calls generalizing w args args' calls' with
  | nil => cases hc; exact .ret (.some (List.rel_reverse ha))
  | cons call rest ih =>
    cases hc with
    | cons hx hr =>
      refine (callee_apply_follows hS hev hf hx hs).known rfl
        (fun _ => .none) fun w' hw v v' hv => ?_
      exact ih (callee_mono hS hw hf) (.cons hv (hS.allKnown_mono hw ha))
        (hr.imp fun _ _ => hS.allKnown_mono hw) (hS.scope_mono hw hs)

theorem results_follow {calls calls' : List (List Value)} (hf : SameCallee S w f f')
    (hc : List.Forall₂ (S.AllKnown w) calls calls') (hs : S.scope w scope scope') :
    S.Sim w (· = none) (fun w => Option.Rel (S.AllKnown w)) (results S.first ev f calls scope)
      (results S.second ev' f' calls' scope') :=
  resultsOnto_follows hS hev hf .nil hc hs

/-- The function is found by its value or its name, and called with matching arguments. -/
theorem handles_funcall : S.Handles (funcall S.first ev) (funcall S.second ev') := by
  intro w args args' env env' scope scope' ha hat
  refine (call_follows hS hev ha hat).unless rfl rfl rfl fun w' hw r r' hr => ?_
  cases hr with
  | none => exact .ret .unknown
  | some hr => exact callee_apply_follows hS hev hr.1 hr.2 (hS.scope_mono hw hat.scope)

/-- One sequence is mapped, and its results are collected. -/
theorem handles_mapOver (c : Collection) :
    S.Handles (mapOver S.first ev c) (mapOver S.second ev' c) := by
  intro w args args' env env' scope scope' ha hat
  simp only [mapOver, List.Forall₂.length_eq ha]
  split
  · exact .ret .unknown
  · refine (call_follows hS hev ha hat).unless rfl rfl rfl fun w' hw r r' hr => ?_
    cases hr with
    | none => exact .ret .unknown
    | @some a b hr =>
      obtain ⟨f, vs⟩ := a
      obtain ⟨f', vs'⟩ := b
      obtain ⟨hf, hvs⟩ := hr
      cases hvs with
      | nil => exact .ret .unknown
      | cons hseq hmore =>
        refine .withResult hseq.asSequence (fun items items' hi => ?_) (.ret .unknown)
        refine (results_follow hS hev hf (singles_match hi) (hS.scope_mono hw hat.scope)).unless
          rfl rfl rfl fun w'' hw' r r' hr => ?_
        cases hr with
        | none => exact .ret .unknown
        | some hr =>
          refine .ofExcept_orUnknown ?_
          exact collect_matches hS c (hS.allKnown_mono hw' (.cons hseq hmore)) hr

theorem handles_mapTogether : S.Handles (mapTogether S.first ev) (mapTogether S.second ev') := by
  intro w args args' env env' scope scope' ha hat
  simp only [mapTogether, List.Forall₂.length_eq ha]
  split
  · exact .ret .unknown
  · refine (call_follows hS hev ha hat).unless rfl rfl rfl fun w' hw r r' hr => ?_
    cases hr with
    | none => exact .ret .unknown
    | some hr =>
      refine .withResult (asSequences_match hr.2) (fun seqs seqs' hseqs => ?_) (.ret .unknown)
      refine (results_follow hS hev hr.1 (transpose_matches hseqs)
        (hS.scope_mono hw hat.scope)).unless rfl rfl rfl fun w'' hw' r r' hr => ?_
      cases hr with
      | none => exact .ret .unknown
      | some hr => exact .ofExcept (Matches.ofItems hr)

/-- The last argument is a list whose items are arguments of the call. -/
theorem handles_apply : S.Handles (applyForm S.first ev) (applyForm S.second ev') := by
  intro w args args' env env' scope scope' ha hat
  simp only [applyForm, List.Forall₂.length_eq ha]
  split
  · exact .ret .unknown
  · refine (call_follows hS hev ha hat).unless rfl rfl rfl fun w' hw r r' hr => ?_
    cases hr with
    | none => exact .ret .unknown
    | some hr =>
      refine .withResult (MatchesAll.getLastD hr.2 .nil).asList (fun items items' hi => ?_)
        (.ret .unknown)
      exact callee_apply_follows hS hev hr.1 (MatchesAll.append (MatchesAll.dropLast hr.2) hi)
        (hS.scope_mono hw hat.scope)

/-- The result so far is the first argument of the next call. -/
theorem reduceFrom_follows (hf : SameCallee S w f f') (hs : S.scope w scope scope')
    (hv : S.Known w v v') (ha : S.AllKnown w args args') :
    S.Sim w isUnknown S.Known (reduceFrom S.first ev f scope v args)
      (reduceFrom S.second ev' f' scope' v' args') := by
  induction args generalizing w v v' args' with
  | nil => cases ha; exact .ret hv
  | cons x rest ih =>
    cases ha with
    | cons hx hr =>
      refine (callee_apply_follows hS hev hf (.cons hv (.cons hx .nil)) hs).known rfl
        (fun _ => .unknown) fun w' hw a a' hacc => ?_
      exact ih (callee_mono hS hw hf) (hS.scope_mono hw hs) hacc (hS.allKnown_mono hw hr)

theorem reduceItems_follows (hf : SameCallee S w f f') (hs : S.scope w scope scope')
    (ha : S.AllKnown w args args') :
    S.Sim w isUnknown S.Known (reduceItems S.first ev f scope args)
      (reduceItems S.second ev' f' scope' args') := by
  cases ha with
  | nil => exact callee_apply_follows hS hev hf .nil hs
  | cons hx hr => exact reduceFrom_follows hS hev hf hs hx hr

theorem handles_reduce : S.Handles (reduce S.first ev) (reduce S.second ev') := by
  intro w args args' env env' scope scope' ha hat
  simp only [reduce, List.Forall₂.length_eq ha]
  split
  · exact .ret .unknown
  · refine (call_follows hS hev ha hat).unless rfl rfl rfl fun w' hw r r' hr => ?_
    cases hr with
    | none => exact .ret .unknown
    | @some a b hr =>
      obtain ⟨f, vs⟩ := a
      obtain ⟨f', vs'⟩ := b
      obtain ⟨hf, hvs⟩ := hr
      cases hvs with
      | nil => exact .ret .unknown
      | cons hseq hmore =>
        refine .withResult hseq.asSequence (fun items items' hi => ?_) (.ret .unknown)
        have hs := hS.scope_mono hw hat.scope
        cases hmore with
        | nil => exact reduceItems_follows hS hev hf hs hi
        | @cons key key' rest rest' hk hmore =>
          by_cases hinit : key = .sym ":initial-value" ∧ ∃ init, rest = [init]
          · obtain ⟨rfl, init, rfl⟩ := hinit
            match hk, hmore with
            | .sym _, .cons hv .nil => exact reduceItems_follows hS hev hf hs (.cons hv hi)
          · split
            · contradiction
            · rename_i heq
              cases heq
              exact (hinit ⟨rfl, _, rfl⟩).elim
            · split
              · contradiction
              · rename_i heq
                cases heq
                match hk, hmore with
                | .sym _, .cons _ .nil => exact (hinit ⟨rfl, _, rfl⟩).elim
              · exact .ret .unknown

end PatternLint.Simulation
