import Mathlib.Data.List.Induction
import PatternLint.Proofs.SimulationControl

/-! Binding and assigning variables in two evaluations in step. -/

namespace PatternLint.Simulation

open Evaluation

variable {S : Simulation} {ev ev' : Evaluator} {w : S.World} {env env' : FrameId}
  {scope scope' : Scope} {v v' : Value} {args args' : List Value}

/-- Variables with the forms for their first values. -/
def Inits (S : Simulation) (w : S.World) : List (String × Value) → List (String × Value) → Prop :=
  List.Forall₂ fun b b' => b.1 = b'.1 ∧ S.Known w b.2 b'.2

theorem Inits.map_fst {bs bs' : List (String × Value)} (h : Inits S w bs bs') :
    bs.map (·.1) = bs'.map (·.1) := by
  induction h with
  | nil => rfl
  | cons h _ ih => simp only [List.map_cons, h.1, ih]

theorem Inits.map_snd {bs bs' : List (String × Value)} (h : Inits S w bs bs') :
    S.AllKnown w (bs.map (·.2)) (bs'.map (·.2)) := by
  induction h with
  | nil => exact .nil
  | cons h _ ih => exact .cons h.2 ih

/-- A variable with or without a form for its value is read alike on both sides. -/
theorem binding_matches (h : S.Known w v v') :
    Option.Rel (fun b b' => b.1 = b'.1 ∧ S.Known w b.2 b'.2) (binding? v) (binding? v') := by
  cases h with
  | sym name => exact .some ⟨rfl, .nil⟩
  | list h =>
    cases h with
    | nil => exact .none
    | cons hn h =>
      cases hn with
      | sym name =>
        cases h with
        | nil => exact .some ⟨rfl, .nil⟩
        | cons hi h =>
          cases h with
          | nil => exact .some ⟨rfl, hi⟩
          | cons _ _ => exact .none
      | _ => exact .none
  | _ => exact .none

theorem bindings_matches (h : S.Known w v v') :
    Option.Rel (Inits S w) (bindings? v) (bindings? v') := by
  cases h with
  | nil => exact .some .nil
  | list h =>
    simp only [bindings?]
    induction h with
    | nil => exact .some .nil
    | @cons x y xs ys hb _ ih =>
      have hb := binding_matches hb
      simp only [List.mapM_cons]
      generalize binding? x = b, binding? y = b' at hb
      generalize xs.mapM binding? = bs, ys.mapM binding? = bs' at ih
      cases hb with
      | none => exact .none
      | some hb =>
        cases ih with
        | none => exact .none
        | some hbs => exact .some (.cons hb hbs)
  | _ => exact .none

/-- Names with loosely matching values are bindings that may differ in what is known. -/
theorem Bound.zip {vs vs' : List Value} (names : List String)
    (h : List.Forall₂ (S.Loosely w) vs vs') : S.Bound w (names.zip vs) (names.zip vs') := by
  induction h generalizing names with
  | nil => simp [Bound]
  | cons h _ ih =>
    cases names with
    | nil => exact .nil
    | cons n names => exact .cons ⟨rfl, h⟩ (ih names)

/-- The first item and the rest of matching lists, or complaints of the same kind. -/
theorem parts_matches (h : S.Known w v v') :
    Agrees (fun p p' => S.Known w p.1 p'.1 ∧ S.Known w p.2 p'.2) (parts v) (parts v') := by
  simp only [parts, h.isUnknown_eq]
  split
  · exact .ok ⟨.unknown, .unknown⟩
  · have hcar := h.car
    have hcdr := h.cdr
    generalize Primitive.car v = a, Primitive.car v' = a' at hcar
    generalize Primitive.cdr v = d, Primitive.cdr v' = d' at hcdr
    cases hcar with
    | error hf => exact .error hf
    | ok hcar =>
      cases hcdr with
      | error hf => exact .error hf
      | ok hcdr => exact .ok ⟨hcar, hcdr⟩

variable (hS : S.Sound)
include hS

/-- Operands whose values may be unknown on one side only. -/
theorem operands_follow {e e' : Evaluator} (he : S.FollowsLoosely e e')
    (ha : S.AllKnown w args args') (hat : S.At w env env' scope scope') :
    S.Sim w never (fun w => List.Forall₂ (S.Loosely w)) (e.operands args env scope)
      (e'.operands args' env' scope') := by
  unfold Evaluator.operands
  induction args generalizing w args' with
  | nil => cases ha; exact .ret .nil
  | cons arg rest ih =>
    cases ha with
    | cons hx hr =>
      simp only [List.mapM_cons]
      refine (he hx hat).seq fun w' hw v v' hv => ?_
      refine (ih (hS.allKnown_mono hw hr) (hS.at_mono hw hat)).seq fun w'' hw' vs vs' hvs => ?_
      exact .ret (.cons (hS.loosely_mono hw' hv) hvs)

variable (hev : S.Follows ev ev')
include hev

/-- All values are found before any of the frames is made. -/
theorem handles_let : S.Handles (letForm S.first ev) (letForm S.second ev') := by
  intro w args args' env env' scope scope' ha hat
  cases ha with
  | nil => exact .ret .unknown
  | @cons head head' _ _ hh hf =>
    have hb := bindings_matches hh
    simp only [letForm]
    generalize bindings? head = b, bindings? head' = b' at hb
    cases hb with
    | none => exact .ret .unknown
    | some hb =>
      refine (operands_follow hS (hS.operand hev) hb.map_snd hat).seq fun w' hw vs vs' hvs => ?_
      rw [hb.map_fst]
      have hat := hS.at_mono hw hat
      refine (hS.newFrame (.some hat.env) (Bound.zip _ hvs)).seq fun w'' hw' i i' hi => ?_
      refine handles_body hS hev (hS.allKnown_mono (le_trans hw hw') hf) ?_
      exact ⟨hS.own_frames hi, hS.binding (hS.scope_mono hw' hat.scope) _⟩

/-- Variables are bound in the own frame one by one, and the scope grows with them. -/
theorem bindInTurn_follows {bs bs' : List (String × Value)} {i i' : FrameId}
    (hb : Inits S w bs bs') (hi : S.own w i i') (hs : S.scope w scope scope') :
    S.Sim w never S.scope (bindInTurn S.first ev i scope bs)
      (bindInTurn S.second ev' i' scope' bs') := by
  induction bs generalizing w bs' scope scope' with
  | nil => cases hb; exact .ret hs
  | cons b rest ih =>
    cases hb with
    | @cons _ b' _ _ hx hr =>
      obtain ⟨name, init⟩ := b
      obtain ⟨name', init'⟩ := b'
      obtain ⟨rfl, hx⟩ := hx
      refine (hS.operand hev hx ⟨hS.own_frames hi, hs⟩).seq fun w' hw v v' hv => ?_
      have hi := hS.own_mono hw hi
      refine (hS.define hi hv name).seq fun w'' hw' _ _ _ => ?_
      have hw := le_trans hw hw'
      exact ih (hr.imp fun _ _ h => ⟨h.1, hS.known_mono hw h.2⟩) (hS.own_mono hw' hi)
        (hS.binding (hS.scope_mono hw hs) [name])

theorem handles_letStar : S.Handles (letStarForm S.first ev) (letStarForm S.second ev') := by
  intro w args args' env env' scope scope' ha hat
  cases ha with
  | nil => exact .ret .unknown
  | @cons head head' _ _ hh hf =>
    have hb := bindings_matches hh
    simp only [letStarForm]
    generalize bindings? head = b, bindings? head' = b' at hb
    cases hb with
    | none => exact .ret .unknown
    | some hb =>
      refine (hS.newFrame (.some hat.env) .nil).seq fun w' hw i i' hi => ?_
      refine (bindInTurn_follows hS hev (hb.imp fun _ _ h => ⟨h.1, hS.known_mono hw h.2⟩) hi
        (hS.scope_mono hw hat.scope)).seq fun w'' hw' c c' hc => ?_
      exact handles_body hS hev (hS.allKnown_mono (le_trans hw hw') hf)
        ⟨hS.own_frames (hS.own_mono hw' hi), hc⟩

/-- Each pair is assigned in step; an unknown value is assigned like any other. -/
theorem setPairs_follows {last last' : Value} (hl : S.Loosely w last last')
    (ha : S.AllKnown w args args') (hat : S.At w env env' scope scope') :
    S.Sim w isUnknown S.Known (setPairs S.first ev last args env scope)
      (setPairs S.second ev' last' args' env' scope') := by
  induction args using List.twoStepInduction generalizing w args' last last' with
  | nil => cases ha; exact .loose hl
  | singleton x =>
    cases ha with
    | cons hx hr =>
      cases hr
      cases hx <;> exact .ret .unknown
  | cons_cons x form rest ih _ =>
    cases ha with
    | cons hx ha =>
      cases ha with
      | cons hf hr =>
        cases hx with
        | sym name =>
          refine (hS.operand hev hf hat).seq fun w' hw v v' hv => ?_
          refine (hS.assign (hS.at_mono hw hat) hv name).seq fun w'' hw' _ _ _ => ?_
          have hw := le_trans hw hw'
          exact ih (hS.loosely_mono hw' hv) (hS.allKnown_mono hw hr) (hS.at_mono hw hat)
        | _ => exact .ret .unknown

theorem handles_set : S.Handles (set S.first ev) (set S.second ev') := by
  intro w args args' env env' scope scope' ha hat
  simp only [Evaluation.set, List.Forall₂.length_eq ha]
  split
  · exact setPairs_follows hS hev (.inl .nil) ha hat
  · exact .ret .unknown

theorem handles_push : S.Handles (push S.first ev) (push S.second ev') := by
  intro w args args' env env' scope scope' ha hat
  cases ha with
  | nil => exact .ret .unknown
  | cons hf ha =>
    cases ha with
    | nil => exact .ret .unknown
    | cons hn ha =>
      cases ha with
      | cons _ _ => cases hn <;> exact .ret .unknown
      | nil =>
        cases hn with
        | sym name =>
          simp only [push]
          refine (hev hf hat).bind (fun w' hw x x' hx => ?_) ?_ ?_
          · have hat := hS.at_mono hw hat
            refine (hev (.sym name) hat).bind (fun w'' hw' old old' ho => ?_) ?_ ?_
            · rw [hx.isUnknown_eq, ho.isUnknown_eq]
              have hnew : S.Known w'' (if x'.isUnknown || old'.isUnknown then .unknown
                  else Value.prepend [x] old) (if x'.isUnknown || old'.isUnknown then .unknown
                  else Value.prepend [x'] old') := by
                split
                · exact .unknown
                · exact .prepend (.cons (hS.known_mono hw' hx) .nil) ho
              refine (hS.assign (hS.at_mono hw' hat) (.inl hnew) name).seq fun u hu _ _ _ => ?_
              exact .ret (hS.known_mono hu hnew)
            · rintro ht _ rfl s
              exact off_bind ht fun _ _ => ⟨ht, by simp [isUnknown, Value.isUnknown]⟩
            · rintro ht _ rfl s
              exact off_bind ht fun _ _ => ⟨ht, by simp [isUnknown, Value.isUnknown]⟩
          · rintro ht _ rfl s
            refine off_bind ht fun _ _ => off_bind ht fun _ _ => ?_
            exact ⟨ht, by simp [isUnknown, Value.isUnknown]⟩
          · rintro ht _ rfl s
            refine off_bind ht fun _ _ => off_bind ht fun _ _ => ?_
            exact ⟨ht, by simp [isUnknown, Value.isUnknown]⟩
        | _ => exact .ret .unknown

/-- The rest is assigned before the first item is given back. -/
theorem handles_pop : S.Handles (pop S.first ev) (pop S.second ev') := by
  intro w args args' env env' scope scope' ha hat
  cases ha with
  | nil => exact .ret .unknown
  | cons hn ha =>
    cases ha with
    | cons _ _ => cases hn <;> exact .ret .unknown
    | nil =>
      cases hn with
      | sym name =>
        simp only [pop]
        refine (hev (.sym name) hat).bind (fun w' hw old old' ho => ?_) ?_ ?_
        · have hat := hS.at_mono hw hat
          refine .withResult (parts_matches ho) (fun p p' hp => ?_) ?_
          · refine (hS.assign hat (.inl hp.2) name).seq fun u hu _ _ _ => ?_
            exact .ret (hS.known_mono hu hp.1)
          · exact (hS.assign hat (.inl .unknown) name).seq fun u hu _ _ _ => .ret .unknown
        · rintro ht _ rfl s
          exact off_bind ht fun _ _ => ⟨ht, rfl⟩
        · rintro ht _ rfl s
          exact off_bind ht fun _ _ => ⟨ht, rfl⟩
      | _ => exact .ret .unknown

end PatternLint.Simulation
