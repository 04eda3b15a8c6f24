import PatternLint.Proofs.Simulation

/-! Conditionals, sequences and loops of two evaluations in step. -/

namespace PatternLint.Simulation

open Evaluation

variable {S : Simulation} (hS : S.Sound) {ev ev' : Evaluator} (hev : S.Follows ev ev')
  {w : S.World} {env env' : FrameId} {scope scope' : Scope} {args args' : List Value}

include hS hev

/-- A body goes on after an unknown form only by giving up, so known values lead from form to
form. -/
theorem handles_body : S.Handles ev.body ev'.body := by
  intro w args args' env env' scope scope' ha hat
  induction args generalizing w args' with
  | nil => cases ha; exact .ret .nil
  | cons form rest ih =>
    cases ha with
    | cons hf hr =>
      cases hr with
      | nil => exact hev hf hat
      | cons hg hr =>
        refine (hev hf hat).known rfl (fun _ => .unknown) fun w' hw _ _ _ => ?_
        exact ih (hS.allKnown_mono hw (.cons hg hr)) (hS.at_mono hw hat)

/-- Forms that are run for their effects; the answer tells whether all of them are known. -/
theorem run_follows (ha : S.AllKnown w args args') (hat : S.At w env env' scope scope') :
    S.Sim w (· = false) (fun _ => Eq) (ev.run args env scope) (ev'.run args' env' scope') := by
  induction args generalizing w args' with
  | nil => cases ha; exact .ret rfl
  | cons form rest ih =>
    cases ha with
    | cons hf hr =>
      refine (hev hf hat).known rfl (fun _ => rfl) fun w' hw _ _ _ => ?_
      exact ih (hS.allKnown_mono hw hr) (hS.at_mono hw hat)

/-- Operands are collected in step, in front of matching values that are there already. -/
theorem knownOnto_follows {vs vs' : List Value} (hv : S.AllKnown w vs vs')
    (ha : S.AllKnown w args args') (hat : S.At w env env' scope scope') :
    S.Sim w (· = none) (fun w => Option.Rel (S.AllKnown w)) (ev.knownOnto vs args env scope)
      (ev'.knownOnto vs' args' env' scope') := by
  induction args generalizing w args' vs vs' with
  | nil => cases ha; exact .ret (.some (List.rel_reverse hv))
  | cons form rest ih =>
    cases ha with
    | cons hf hr =>
      refine (hev hf hat).known rfl (fun _ => .none) fun w' hw v v' hvv => ?_
      exact ih (.cons hvv (hS.allKnown_mono hw hv)) (hS.allKnown_mono hw hr) (hS.at_mono hw hat)

theorem known_follows (ha : S.AllKnown w args args') (hat : S.At w env env' scope scope') :
    S.Sim w (· = none) (fun w => Option.Rel (S.AllKnown w)) (ev.known args env scope)
      (ev'.known args' env' scope') :=
  knownOnto_follows hS hev .nil ha hat

/-- Matching conditions select the same branch. -/
theorem handles_ifThenElse : S.Handles (ifThenElse ev) (ifThenElse ev') := by
  intro w args args' env env' scope scope' ha hat
  cases ha with
  | nil => exact .ret .unknown
  | cons ht ha =>
    cases ha with
    | nil => exact .ret .unknown
    | cons hy hn =>
      refine (hev ht hat).known rfl (fun _ => .unknown) fun w' hw v v' hv => ?_
      rw [hv.isNil_eq]
      split
      · exact handles_body hS hev (hS.allKnown_mono hw hn) (hS.at_mono hw hat)
      · exact hev (hS.known_mono hw hy) (hS.at_mono hw hat)

theorem handles_when (holds : Bool) : S.Handles (when ev holds) (when ev' holds) := by
  intro w args args' env env' scope scope' ha hat
  cases ha with
  | nil => exact .ret .unknown
  | cons ht ha =>
    refine (hev ht hat).known rfl (fun _ => .unknown) fun w' hw v v' hv => ?_
    rw [hv.isNil_eq]
    split
    · exact .ret .nil
    · exact handles_body hS hev (hS.allKnown_mono hw ha) (hS.at_mono hw hat)

/-- The induction is on the clauses, which match one by one. -/
theorem handles_cond : S.Handles (cond ev) (cond ev') := by
  intro w args args' env env' scope scope' ha hat
  induction args generalizing w args' with
  | nil => cases ha; exact .ret .nil
  | cons clause rest ih =>
    cases ha with
    | cons hc hr =>
      cases hc with
      | nil =>
        simp only [Evaluation.cond]
        exact ih hr hat
      | list hc =>
        cases hc with
        | nil => exact .ret .unknown
        | cons ht hb =>
          refine (hev ht hat).known rfl (fun _ => .unknown) fun w' hw v v' hv => ?_
          rw [hv.isNil_eq]
          split
          · exact ih (hS.allKnown_mono hw hr) (hS.at_mono hw hat)
          · cases hb with
            | nil => exact .ret hv
            | cons hb hbs =>
              exact handles_body hS hev (hS.allKnown_mono hw (.cons hb hbs)) (hS.at_mono hw hat)
      | _ => exact .ret .unknown

/-- Operands are tried until one is `nil`, on both sides at the same place. -/
theorem handles_andFrom {last last' : Value} (hl : S.Known w last last')
    (ha : S.AllKnown w args args') (hat : S.At w env env' scope scope') :
    S.Sim w isUnknown S.Known (andFrom ev last args env scope)
      (andFrom ev' last' args' env' scope') := by
  induction args generalizing w args' last last' with
  | nil => cases ha; exact .ret hl
  | cons form rest ih =>
    cases ha with
    | cons hf hr =>
      refine (hev hf hat).known rfl (fun _ => .unknown) fun w' hw v v' hv => ?_
      rw [hv.isNil_eq]
      split
      · exact .ret .nil
      · exact ih hv (hS.allKnown_mono hw hr) (hS.at_mono hw hat)

theorem handles_or : S.Handles (or ev) (or ev') := by
  intro w args args' env env' scope scope' ha hat
  induction args generalizing w args' with
  | nil => cases ha; exact .ret .nil
  | cons form rest ih =>
    cases ha with
    | cons hf hr =>
      refine (hev hf hat).known rfl (fun _ => .unknown) fun w' hw v v' hv => ?_
      rw [hv.isNil_eq]
      split
      · exact ih (hS.allKnown_mono hw hr) (hS.at_mono hw hat)
      · exact .ret hv

theorem handles_valueOfNth (index : Nat) :
    S.Handles (valueOfNth ev index) (valueOfNth ev' index) := by
  intro w args args' env env' scope scope' ha hat
  unfold valueOfNth
  rw [List.Forall₂.length_eq ha]
  split
  · exact .ret .unknown
  · refine (known_follows hS hev ha hat).unless rfl rfl rfl fun w' _ r r' hr => ?_
    cases hr with
    | none => exact .ret .unknown
    | some hv =>
      exact .ret (.getD (hv.getElem? index) .unknown)

/-- Rounds are counted on both sides; the induction is on those that are left. -/
theorem loop_follows {test test' : Value} {forms forms' : List Value} (ht : S.Known w test test')
    (hf : S.AllKnown w forms forms') (hat : S.At w env env' scope scope') (fuel : Nat) :
    S.Sim w isUnknown S.Known (loop ev test forms env scope fuel)
      (loop ev' test' forms' env' scope' fuel) := by
  induction fuel generalizing w with
  | zero => exact .ret .nil
  | succ fuel ih =>
    refine (hev ht hat).known rfl (fun _ => .unknown) fun w' hw v v' hv => ?_
    rw [hv.isNil_eq]
    split
    · exact .ret .nil
    · have hat := hS.at_mono hw hat
      refine (run_follows hS hev (hS.allKnown_mono hw hf) hat).unless rfl rfl rfl ?_
      rintro w'' hw' b _ rfl
      split
      · exact ih (hS.known_mono (le_trans hw hw') ht) (hS.allKnown_mono (le_trans hw hw') hf)
          (hS.at_mono hw' hat)
      · exact .ret .unknown

theorem handles_while : S.Handles (Evaluation.while ev) (Evaluation.while ev') := by
  intro w args args' env env' scope scope' ha hat
  cases ha with
  | nil => exact .ret .unknown
  | cons ht hf =>
    have hlimit := (hS.scope_eq hat.scope).2.2
    simp only [Evaluation.while, hlimit]
    exact loop_follows hS hev ht hf hat _

omit hS hev in
/-- Heads of loops are read from matching forms alike. -/
theorem loopHead_matches {v v' : Value} (h : S.Known w v v') :
    Option.Rel (fun a b => a.name = b.name ∧ S.Known w a.range b.range ∧
      S.AllKnown w a.result b.result) (LoopHead.of? v) (LoopHead.of? v') := by
  cases h with
  | list h =>
    cases h with
    | nil => exact .none
    | cons hn h =>
      cases hn with
      | sym name =>
        cases h with
        | nil => exact .none
        | cons hr h =>
          cases h with
          | nil => exact .some ⟨rfl, hr, .nil⟩
          | cons hs h =>
            cases h with
            | nil => exact .some ⟨rfl, hr, .cons hs .nil⟩
            | cons _ _ => exact .none
      | _ => exact .none
  | _ => exact .none

/-- The variable of the loop is set in an own frame before each round. -/
theorem forEach_follows {i i' : FrameId} {vs vs' forms forms' : List Value} {name : String}
    (hv : S.AllKnown w vs vs') (hf : S.AllKnown w forms forms') (hi : S.own w i i')
    (hs : S.scope w scope scope') :
    S.Sim w (· = false) (fun _ => Eq) (forEach ev name vs forms i scope)
      (forEach ev' name vs' forms' i' scope') := by
  induction vs generalizing w vs' with
  | nil => cases hv; exact .ret rfl
  | cons v rest ih =>
    cases hv with
    | cons hv hr =>
      refine (hS.define hi (.inl hv) name).seq fun w' hw _ _ _ => ?_
      have hat : S.At w' i i' scope scope' :=
        ⟨hS.frames_mono hw _ _ (hS.own_frames hi), hS.scope_mono hw hs⟩
      refine (run_follows hS hev (hS.allKnown_mono hw hf) hat).unless rfl rfl rfl ?_
      rintro w'' hw' b _ rfl
      have hw := le_trans hw hw'
      split
      · exact ih (hS.allKnown_mono hw hr) (hS.allKnown_mono hw hf) (hS.own_mono hw hi)
          (hS.scope_mono hw hs)
      · exact .ret rfl

theorem loopOver_follows {head head' : LoopHead} {vs vs' forms forms' : List Value}
    {last last' : Value} (hn : head.name = head'.name)
    (hr : S.AllKnown w head.result head'.result) (hv : S.AllKnown w vs vs')
    (hl : S.Known w last last') (hf : S.AllKnown w forms forms')
    (hat : S.At w env env' scope scope') :
    S.Sim w isUnknown S.Known (loopOver ev head vs last forms env scope)
      (loopOver ev' head' vs' last' forms' env' scope') := by
  unfold loopOver
  refine (hS.newFrame (.some hat.env) .nil).seq fun w' hw i i' hi => ?_
  have hs := hS.binding (hS.scope_mono hw hat.scope) [head.name]
  rw [← hn]
  refine (forEach_follows hS hev (hS.allKnown_mono hw hv) (hS.allKnown_mono hw hf) hi hs).unless
    rfl rfl rfl ?_
  rintro w'' hw' b _ rfl
  split
  · have hi := hS.own_mono hw' hi
    have hw'' := le_trans hw hw'
    refine (hS.define hi (.inl (hS.known_mono hw'' hl)) head.name).seq fun u hu _ _ _ => ?_
    exact handles_body hS hev (hS.allKnown_mono (le_trans hw'' hu) hr)
      (hS.at_mono hu ⟨hS.own_frames hi, hS.scope_mono hw' hs⟩)
  · exact .ret .unknown

/-- Both go through matching sequences, or both complain that there is none. -/
theorem handles_doList : S.Handles (doList ev) (doList ev') := by
  intro w args args' env env' scope scope' ha hat
  cases ha with
  | nil => exact .ret .unknown
  | @cons head head' _ _ hh hf =>
    have hh := loopHead_matches hh
    simp only [doList]
    generalize LoopHead.of? head = a, LoopHead.of? head' = a' at hh
    cases hh with
    | none => exact .ret .unknown
    | some hh =>
      obtain ⟨hn, hr, hres⟩ := hh
      refine (hev hr hat).known rfl (fun _ => .unknown) fun w' hw v v' hv => ?_
      refine .withResult hv.asSequence (fun vs vs' hvs => ?_) (.ret .unknown)
      exact loopOver_follows hS hev hn (hS.allKnown_mono hw hres) hvs .nil
        (hS.allKnown_mono hw hf) (hS.at_mono hw hat)

/-- Counts match only if they are the same number. -/
theorem handles_doTimes : S.Handles (doTimes ev) (doTimes ev') := by
  intro w args args' env env' scope scope' ha hat
  cases ha with
  | nil => exact .ret .unknown
  | @cons head head' _ _ hh hf =>
    have hh := loopHead_matches hh
    simp only [doTimes]
    generalize LoopHead.of? head = a, LoopHead.of? head' = a' at hh
    cases hh with
    | none => exact .ret .unknown
    | some hh =>
      obtain ⟨hn, hr, hres⟩ := hh
      refine (hev hr hat).unless rfl rfl rfl fun w' hw v v' hv => ?_
      cases hv with
      | int n =>
        dsimp only
        split
        · exact .ret .unknown
        · refine loopOver_follows hS hev hn (hS.allKnown_mono hw hres) ?_ (.int _)
            (hS.allKnown_mono hw hf) (hS.at_mono hw hat)
          refine List.forall₂_same.mpr fun v hv => ?_
          obtain ⟨i, -, rfl⟩ := List.mem_map.1 hv
          exact .int _
      | _ => exact .ret .unknown

end PatternLint.Simulation
