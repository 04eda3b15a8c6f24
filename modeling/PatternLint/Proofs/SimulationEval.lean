import PatternLint.Evaluation.Structure
import PatternLint.Proofs.SimulationBinding
import PatternLint.Proofs.SimulationMapping
import PatternLint.Proofs.SimulationQuote
import PatternLint.Proofs.SimulationRx

/-! Whole evaluations stay in step: every special form does, and with them each step. -/

namespace PatternLint.Simulation

open Evaluation

variable {S : Simulation} (hS : S.Sound) {ev ev' : Evaluator} (hev : S.Follows ev ev')
  {w : S.World} {env env' : FrameId} {scope scope' : Scope} {args args' : List Value}

include hS hev

theorem handles_form (form : SpecialForm) : S.Handles (form.run S.first ev)
      (form.run S.second ev') := by
  cases form with
  | quote => exact handles_quote
  | function => exact handles_function hS
  | lambda => exact handles_lambda hS
  | template => exact handles_template hS hev
  | ifThenElse => exact handles_ifThenElse hS hev
  | cond => exact handles_cond hS hev
  | when holds => exact handles_when hS hev holds
  | and => exact fun _ _ _ _ _ _ _ ha hat => handles_andFrom hS hev (.sym "t") ha hat
  | or => exact handles_or hS hev
  | progn => exact handles_body hS hev
  | valueOfNth index => exact handles_valueOfNth hS hev index
  | letForm => exact handles_let hS hev
  | letStarForm => exact handles_letStar hS hev
  | set => exact handles_set hS hev
  | push => exact handles_push hS hev
  | pop => exact handles_pop hS hev
  | «while» => exact handles_while hS hev
  | doList => exact handles_doList hS hev
  | doTimes => exact handles_doTimes hS hev
  | mapOver c => exact handles_mapOver hS hev c
  | mapTogether => exact handles_mapTogether hS hev
  | reduce => exact handles_reduce hS hev
  | apply => exact handles_apply hS hev
  | funcall => exact handles_funcall hS hev
  | rx => exact handles_rx hS hev
  | rxToString => exact handles_rxToString hS hev

omit hS in
theorem orDefault_follows (href : ∀ f, S.refused f → f.handling ≠ .depth) :
    S.Follows (ev.orDefault .unknown) (ev'.orDefault .unknown) :=
  fun _ _ _ _ _ _ _ hx hat => (hev hx hat).orDefault href

/-- The probe and the evaluation of the expression of a variable. -/
theorem findValue_follows (href : ∀ f, S.refused f → f.handling ≠ .depth) {e e' : Value}
    {root root' : FrameId} (he : S.Known w e e')
    (hat : S.At w root root' ⟨scope.defs, root, [], [], [], scope.loopLimit⟩
      ⟨scope'.defs, root', [], [], [], scope'.loopLimit⟩) :
    S.Sim w never S.Loosely (findValue S.first ev e root scope)
      (findValue S.second ev' e' root' scope') :=
  (hS.operand hev .nil hat).seq fun _ hw _ _ _ =>
    hS.operand (orDefault_follows hev href) (hS.known_mono hw he) (hS.at_mono hw hat)

omit hS hev in
/-- Evaluators under which the values of global variables come about in step. -/
def ReadsGlobals (S : Simulation) (ev ev' : Evaluator) : Prop :=
  ∀ ⦃w scope scope'⦄, S.scope w scope scope' → ∀ name,
    S.Sim w isUnknown S.Known (globalValue S.first ev name scope)
      (globalValue S.second ev' name scope')

omit hS in
theorem Lockstep.readsGlobals (hS : S.Lockstep) : S.ReadsGlobals ev ev' := by
  intro w scope scope' hs name
  simp only [globalValue]
  refine (hS.global name).seq fun w₁ h₁ g g' hg => ?_
  cases hg with
  | none => exact .ret .unknown
  | some hg =>
    cases hg with
    | known hv => exact .loose hv
    | busy _ => exact .ret .unknown
    | pending he =>
      refine (hS.putGlobal (.busy he) name).seq fun w₂ h₂ _ _ _ => ?_
      refine (hS.newFrame .none .nil).seq fun w₃ h₃ i i' hi => ?_
      have h₁₃ := le_trans (le_trans h₁ h₂) h₃
      have he := hS.known_mono (le_trans h₂ h₃) he
      have hroot := hS.atRoot (hS.scope_mono h₁₃ hs) hi
      refine (findValue_follows hS.toSound hev hS.refused_depth he ⟨hS.own_frames hi, hroot⟩).rescue
        (fun w₄ h₄ v v' hv => ?_) (fun w₄ h₄ f f' hf => ?_) (fun _ _ => rfl) (fun _ _ => rfl)
      · refine (hS.putGlobal (.known hv) name).seq fun w₅ h₅ _ _ _ => ?_
        exact .loose (hS.loosely_mono h₅ hv)
      · refine (hS.putGlobal (.pending (hS.known_mono h₄ he)) name).seq fun w₅ h₅ _ _ _ => ?_
        exact .fail hf

omit hev in
theorem variableValue_follows (hg : S.ReadsGlobals ev ev') (name : String)
    (hat : S.At w env env' scope scope') :
    S.Sim w isUnknown S.Known (variableValue S.first ev name env scope)
      (variableValue S.second ev' name env' scope') := by
  simp only [variableValue]
  split
  · exact .ret .nil
  · split
    · exact .ret (.sym _)
    · refine (hS.lookup hat.env name).seq fun w' hw r r' hr => ?_
      cases hr with
      | none => exact hg (hS.scope_mono hw hat.scope) name
      | some hv => exact .loose hv

theorem callByName_follows (head : String) :
    S.Handles (callByName S.first ev head) (callByName S.second ev' head) := by
  intro w args args' env env' scope scope' ha hat
  simp only [callByName]
  split
  · exact handles_form hS hev _ ha hat
  · rw [← (hS.scope_eq hat.scope).1]
    generalize hname : scope.defs.resolve head = name
    cases hm : scope.defs.macros.get? name with
    | some d =>
      have := hS.scope_defs hat.scope name d (.inr hm)
      exact expandMacro_follows hS hev this.1 this.2 ha hat
    | none =>
      cases hf : scope.defs.functions.get? name with
      | some d =>
        have hd := hS.scope_defs hat.scope name d (.inl hf)
        refine (operands_follow hS (hS.operand hev) ha hat).seq fun w' hw vs vs' hvs => ?_
        exact applyDefinition_follows hS hev (hS.known_mono hw hd.1) (hS.allKnown_mono hw hd.2) hvs
          (hS.scope_mono hw hat.scope)
      | none =>
        dsimp only
        cases SpecialForm.named? name with
        | some form => exact handles_form hS hev form ha hat
        | none =>
          cases hp : Primitive.named? name with
          | none => exact .ret .unknown
          | some f =>
            refine (known_follows hS hev ha hat).unless rfl rfl rfl fun w' hw r r' hr => ?_
            cases hr with
            | none => exact .ret .unknown
            | some hr => exact callPrimitive_follows (hS.primitive w' _ f hp) hr

theorem step_follows (hg : S.ReadsGlobals ev ev') :
    S.Follows (step S.first ev) (step S.second ev') := by
  intro w expr expr' env env' scope scope' h hat
  cases h with
  | sym name => exact variableValue_follows hS hg name hat
  | dotted _ _ => exact .ret .unknown
  | list h =>
    cases h with
    | nil => exact .ret (.list .nil)
    | cons hh ha =>
      cases hh with
      | sym head => exact callByName_follows hS hev head ha hat
      | list hh =>
        cases hh with
        | nil => exact .ret .unknown
        | cons hm hl =>
          cases hl with
          | nil =>
            rw [step, step]
            · exact .ret .unknown
            all_goals simp
          | cons hf hb =>
            cases hm with
            | sym name =>
              by_cases hn : name = "lambda"
              · subst hn
                refine (operands_follow hS (hS.operand hev) ha hat).seq fun w' hw vs vs' hvs => ?_
                have hat := hS.at_mono hw hat
                exact applyClosure_follows hS hev (hS.known_mono hw hf) (hS.allKnown_mono hw hb)
                  (.some hat.env) hvs hat.scope
              · have stuck : ∀ p ev i c f b rest, step p ev
                    (.list (.list (.sym name :: f :: b) :: rest)) i c = pure .unknown := by
                  intro p ev i c f b rest
                  rw [step] <;> simp [hn]
                rw [stuck, stuck]
                exact .ret .unknown
            | _ => exact .ret .unknown
      | _ => exact .ret .unknown
  | _ => exact .ret (by constructor <;> assumption)

omit hev in
/-- The first evaluation may have less depth than the second, if running out of it is refused. -/
theorem evalBy_follows_of {depth depth' : Nat}
    (hd : depth = depth' ∧ S.first.tooDeep.handling = S.second.tooDeep.handling ∨
      depth ≤ depth' ∧ S.refused S.first.tooDeep)
    (hg : ∀ ⦃d d'⦄, d + depth' = d' + depth → S.Follows (evalBy S.first d) (evalBy S.second d') →
      S.ReadsGlobals (evalBy S.first d) (evalBy S.second d')) :
    S.Follows (evalBy S.first depth) (evalBy S.second depth') := by
  induction depth generalizing depth' with
  | zero =>
    intro w expr expr' env env' scope scope' _ _
    rcases hd with ⟨rfl, hf⟩ | ⟨_, hr⟩
    · exact .fail hf
    · exact fun s s' _ => .first (.inl hr)
  | succ depth ih =>
    cases depth' with
    | zero => omega
    | succ depth' =>
      have hev : S.Follows (evalBy S.first depth) (evalBy S.second depth') :=
        ih (hd.imp (fun h => ⟨by omega, h.2⟩) fun h => ⟨by omega, h.2⟩)
          fun d d' hdd' => @hg d d' (by omega)
      exact step_follows hS hev (@hg depth depth' (by omega) hev)

omit hS hev in
theorem evalBy_follows (hS : S.Lockstep) {depth depth' : Nat}
    (hd : depth = depth' ∧ S.first.tooDeep.handling = S.second.tooDeep.handling ∨
      depth ≤ depth' ∧ S.refused S.first.tooDeep) :
    S.Follows (evalBy S.first depth) (evalBy S.second depth') :=
  evalBy_follows_of hS.toSound hd fun _ _ _ hev => hS.readsGlobals hev

/-- So do evaluations in fresh root frames. -/
theorem within_follows (href : ∀ f, S.refused f → f.handling ≠ .depth) {expr expr' : Value}
    {o o' : Option FrameId} {defs defs' : Definitions}
    {mutables mutables' : List String} {loopLimit loopLimit' : Nat} (hx : S.Known w expr expr')
    (ho : Option.Rel (S.frames w) o o')
    (hscope : ∀ ⦃w' i i'⦄, w ≤ w' → S.own w' i i' →
      S.scope w' ⟨defs, i, [], mutables, [], loopLimit⟩
        ⟨defs', i', [], mutables', [], loopLimit'⟩) :
    S.Sim w isUnknown S.Known (within ev .unknown expr o mutables defs loopLimit)
      (within ev' .unknown expr' o' mutables' defs' loopLimit') := by
  refine (hS.newFrame ho .nil).seq fun w' hw i i' hi => ?_
  have hat : S.At w' i i' _ _ := ⟨hS.own_frames hi, hscope hw hi⟩
  exact orDefault_follows hev href (hS.known_mono hw hx) hat

end PatternLint.Simulation

/-! Structural evaluations stay in step, where no value may be unknown on one side only. -/

namespace PatternLint.Simulation

open Evaluation

variable {S : Simulation} {ev ev' : Evaluator} {w : S.World} {env env' : FrameId}
  {scope scope' : Scope} {v v' : Value}

inductive SameConstruction (S : Simulation) (w : S.World) : Construction → Construction → Prop
  | list {xs ys : List Value} (h : S.AllKnown w xs ys) : SameConstruction S w (.list xs) (.list ys)
  | cons {x x' y y' : Value} (hx : S.Known w x x') (hy : S.Known w y y') :
      SameConstruction S w (.cons x y) (.cons x' y')
  | append {xs ys : List Value} (h : S.AllKnown w xs ys) :
      SameConstruction S w (.append xs) (.append ys)
  | same {x x' : Value} (h : S.Known w x x') : SameConstruction S w (.same x) (.same x')
  | template {x x' : Value} (h : S.Known w x x') : SameConstruction S w (.template x) (.template x')

theorem SameConstruction.calls_eq {c c' : Construction} (h : SameConstruction S w c c') :
    c.calls = c'.calls := by
  cases h <;> rfl

theorem orNil_matches (h : S.Known w v v') : S.Known w (orNil v) (orNil v') := by
  simp only [orNil, h.isUnknown_eq]
  split
  · exact .nil
  · exact h

theorem construction_matches (h : S.Known w v v') :
    Option.Rel (SameConstruction S w) (Construction.of? v) (Construction.of? v') := by
  fun_cases Construction.of? v with
  | case1 args => match h with | .list (.cons (.sym _) ha) => exact .some (.list ha)
  | case2 a b =>
    match h with
    | .list (.cons (.sym _) (.cons hx (.cons hy .nil))) => exact .some (.cons hx hy)
  | case3 args => match h with | .list (.cons (.sym _) ha) => exact .some (.append ha)
  | case4 args => match h with | .list (.cons (.sym _) ha) => exact .some (.append ha)
  | case5 a => match h with | .list (.cons (.sym _) (.cons hx .nil)) => exact .some (.same hx)
  | case6 a => match h with | .list (.cons (.sym _) (.cons hx .nil)) => exact .some (.same hx)
  | case7 a => match h with | .list (.cons (.sym _) (.cons hx .nil)) => exact .some (.template hx)
  | case8 v h1 h2 h3 h4 h5 h6 h7 =>
    rw [Construction.of?.eq_8 v']
    · exact .none
    · rintro args rfl
      match h with | .list (.cons (.sym _) _) => exact h1 _ rfl
    · rintro a b rfl
      match h with | .list (.cons (.sym _) (.cons _ (.cons _ .nil))) => exact h2 _ _ rfl
    · rintro args rfl
      match h with | .list (.cons (.sym _) _) => exact h3 _ rfl
    · rintro args rfl
      match h with | .list (.cons (.sym _) _) => exact h4 _ rfl
    · rintro a rfl
      match h with | .list (.cons (.sym _) (.cons _ .nil)) => exact h5 _ rfl
    · rintro a rfl
      match h with | .list (.cons (.sym _) (.cons _ .nil)) => exact h6 _ rfl
    · rintro a rfl
      match h with | .list (.cons (.sym _) (.cons _ .nil)) => exact h7 _ rfl

theorem Sim.strict {α β : Type} {given : α → Prop} {lost : β → Prop} {A : S.World → α → α → Prop}
    {B : S.World → β → β → Prop} {m m' : Eval α} {k k' : α → Eval β} (ht : ¬S.tolerant)
    (h : S.Sim w given A m m')
    (hk : ∀ ⦃w'⦄, w ≤ w' → ∀ ⦃a a'⦄, A w' a a' → S.Sim w' lost B (k a) (k' a')) :
    S.Sim w lost B (m >>= k) (m' >>= k') :=
  h.bind hk (fun h => (ht h).elim) fun h => (ht h).elim

variable (hS : S.Sound) (ht : ¬S.tolerant) (hsignal : ∀ f, S.refused f → f.handling ≠ .signal)
include hS ht hsignal

theorem build_follows {c c' : Construction} (hev : S.Follows ev ev')
    (hc : SameConstruction S w c c') (hat : S.At w env env' scope scope') :
    S.Sim w isUnknown S.Known (c.build ev env scope) (c'.build ev' env' scope') := by
  cases hc with
  | list ha =>
    exact .strict ht (operands_known hS hev ha hat) fun w' _ vs vs' hvs =>
      .ofExcept (Matches.ofItems hvs)
  | cons hx hy =>
    refine .strict ht (hev hx hat) fun w' hw x x' hx => ?_
    refine .strict ht (hev (hS.known_mono hw hy) (hS.at_mono hw hat)) fun w'' hw' y y' hy => ?_
    exact .ret (.prepend (.cons (hS.known_mono hw' hx) .nil) hy)
  | append ha =>
    refine .strict ht (.orUnknown hsignal (.strict ht (operands_known hS hev ha hat)
      fun w' _ vs vs' hvs => .ofExcept (hS.primitive w' "append" _ rfl _ _ hvs))) ?_
    exact fun w' _ v v' hv => .ret (orNil_matches hv)
  | same hx => exact hev hx hat
  | template hx =>
    exact .strict ht (expand_follows hS hev hx hat) fun w' _ v v' hv => .ret (orNil_matches hv)

theorem evalStructureWithin_follows
    (hdeep : S.first.tooDeep.handling = S.second.tooDeep.handling ∨ S.refused S.first.tooDeep)
    (heval : ∀ depth, S.Follows (evalBy S.first depth) (evalBy S.second depth))
    (depth calls : Nat) :
    S.Follows (evalStructureWithin S.first depth calls)
      (evalStructureWithin S.second depth calls) := by
  induction depth generalizing calls with
  | zero =>
    intro w expr expr' env env' scope scope' _ _
    rcases hdeep with hf | hr
    · exact .fail hf
    · exact fun s s' _ => .first (.inl hr)
  | succ depth ih =>
    cases calls with
    | succ calls => exact ih calls
    | zero =>
      intro w expr expr' env env' scope scope' h hat
      have hc := construction_matches h
      simp only [evalStructureWithin]
      generalize Construction.of? expr = c, Construction.of? expr' = c' at hc
      cases hc with
      | some hc =>
        dsimp only
        rw [← hc.calls_eq]
        exact build_follows hS ht hsignal (ih _) hc hat
      | none =>
        exact .strict ht (heval depth h hat) fun w' _ v v' hv => .ret (orNil_matches hv)

end PatternLint.Simulation
