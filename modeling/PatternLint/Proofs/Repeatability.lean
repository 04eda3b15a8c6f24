import PatternLint.Proofs.Canonical
import PatternLint.Proofs.Isolation
import PatternLint.Proofs.Progress
import PatternLint.Proofs.Termination

/-! Evaluations that are repeated when more global variables are known. Each value that the first
run finds for a variable is known when it is repeated, so the second run needs not find it. -/

namespace PatternLint

open Evaluation

@[reducible] def Table.progress : Preorder (Table Global) where
  le := Table.Later
  le_refl := .refl
  le_trans _ _ _ := .trans

/-- Some value is known that is not the one in `G`. -/
def Table.Strays (T G : Table Global) : Prop :=
  ∃ name v, T.get? name = some (.known v) ∧ G.get? name ≠ some (.known v)

variable {T₀ T T' G : Table Global}

theorem Table.Later.strays (h : T.Later T') (hs : T.Strays G) : T'.Strays G := by
  obtain ⟨name, v, hv, hG⟩ := hs
  exact ⟨name, v, h.known hv, hG⟩

theorem Table.Later.not_strays (h : T.Later G) : ¬T.Strays G := by
  rintro ⟨name, v, hv, hG⟩
  exact hG (h.known hv)

/-- The first run starts with the global variables `T₀`. The second has `G` all the time, as long as
the first does not know a value that is not in `G`. -/
def Course.replay (T₀ G : Table Global) : Course False where
  State := Table Global
  order := Table.progress
  stray T := T.Strays G
  stray_mono _ _ h := h.strays
  stray_strict _ _ := id
  tables w T T₁ T₂ := T₁ = T ∧ T₀.Later T ∧
    (T.Strays G ∧ SameGlobals False w T T₂ ∨ ¬T.Strays G ∧ T₂ = G)
  tables_mono _ _ _ _ _ hw h := ⟨h.1, h.2.1, h.2.2.imp (fun h => ⟨h.1, h.2.mono hw⟩) id⟩

/-- Tables without closures of which the second comes after the first, where no variable is being
found. -/
structure Replayable (T₀ G : Table Global) : Prop where
  first : T₀.IsPlain
  second : G.IsPlain
  later : T₀.Later G
  idle : ∀ name e, T₀.get? name ≠ some (.busy e)

/-- All faults end the first run. It comes back from none of them, but for those that stay inside
the evaluation of a variable. -/
abbrev Simulation.replaying (T₀ G : Table Global) : Simulation :=
  paired (.replay T₀ G) .none .plain .plain SameScope fun _ => True

namespace Replayable

variable (h : Replayable T₀ G)
include h

theorem table_plain (hT : T₀.Later T) (hs : ¬T.Strays G) : T.IsPlain := by
  intro name g hg
  have hn := hT name
  rw [hg] at hn
  generalize hg₀ : T₀.get? name = o at hn
  cases hn with
  | @some g₀ _ hlater =>
    cases hlater with
    | same => exact h.first name _ hg₀
    | found e v =>
      have hG : G.get? name = some (.known v) := by
        by_contra hG
        exact hs ⟨name, v, hg, hG⟩
      exact h.second name _ hG

/-- The second run reads what is known, and the first may have to find it before. -/
theorem reads_known {depth : Nat} {name : String} {scope scope' : Scope} {s s' : Store}
    {w : Pairing × Table Global} (hscope : Simulation.SameScope w.1 scope scope')
    (hs : s.bare.Alike False w.1 s'.bare) (hlater : T₀.Later s.globals) (hT : s.globals = w.2)
    (hs' : s'.globals = G)
    (hstrays : ¬(globalValue .plain (eval depth) name scope s).2.globals.Strays G) :
    (Simulation.replaying T₀ G).Outcome w Simulation.isUnknown (Simulation.replaying T₀ G).Known
      (globalValue .plain (eval depth) name scope s)
      (globalValue .plain (eval depth) name scope' s') := by
  have hprogress := globalValue_progress (eval_progresses depth) name scope s
  have hlive : ¬s.globals.Strays G := fun hs => hstrays (hprogress.globals.strays hs)
  have hplain := h.table_plain hlater hlive
  have hold : (Simulation.replaying T₀ G).store w s s' :=
    ⟨hs, Fence.none_keeps _ _ _, hT, hT ▸ hlater, .inr ⟨hT ▸ hlive, hs'⟩⟩
  rcases hg : s.globals.get? name with _ | e | e | v
  · have hG : s'.globals.get? name = none := by
      rw [hs']
      exact h.later.none_iff.1 (hlater.none_iff.2 hg)
    rw [globalValue_none hg, globalValue_none hG]
    exact .agree w le_rfl hold (.ok .unknown)
  · have hkept : s.bare.Kept (globalValue .plain (eval depth) name scope s).2.bare :=
      ⟨globalValue_keeps depth hplain hg hscope.given, hprogress.closures, rfl⟩
    have hglobals := hprogress.globals
    have hfound : ∀ v, (globalValue .plain (eval depth) name scope s).1 = .ok v →
        G.get? name = some (.known v) := by
      intro v hv
      by_contra hG
      refine hstrays ⟨name, v, ?_, hG⟩
      rw [globalValue_pending hg] at hv ⊢
      dsimp only [Store.withGlobal] at hv ⊢
      rw [Table.get?_put_self, hv]
      rfl
    rcases hr : globalValue .plain (eval depth) name scope s with ⟨f | v, t⟩ <;>
      rw [hr] at hkept hglobals hstrays hfound
    · exact .first (.inl trivial)
    · have hv : v.IsPlain := h.second name _ (hfound v rfl)
      rw [globalValue_known (hs' ▸ hfound v rfl)]
      refine .agree (w.1, t.globals) ⟨le_rfl, hT ▸ hglobals⟩ ?_ (.ok (hv.matches _))
      exact ⟨hs.kept hkept (.refl _), Fence.none_keeps _ _ _, rfl, hlater.trans hglobals,
        .inr ⟨hstrays, hs'⟩⟩
  · exact (h.idle name e (hlater.busy hg)).elim
  · have hG : G.get? name = some (.known v) := by
      by_contra hG
      exact hlive ⟨name, v, hg, hG⟩
    have hv : v.IsPlain := h.second name _ hG
    rw [globalValue_known hg, globalValue_known (hs' ▸ hG)]
    exact .agree w le_rfl hold (.ok (hv.matches _))

theorem readsGlobals (depth : Nat) :
    (Simulation.replaying T₀ G).ReadsGlobals (eval depth) (eval depth) := by
  intro w scope scope' hscope name s s' hs
  obtain ⟨hbare, -, hT, hlater, hcase⟩ := hs
  change (Simulation.replaying T₀ G).Outcome w Simulation.isUnknown
    (Simulation.replaying T₀ G).Known
    (globalValue .plain (eval depth) name scope s) (globalValue .plain (eval depth) name scope' s')
  -- another run, which starts with the same global variables as the first
  obtain ⟨s₂, hs₂⟩ : ∃ s₂, s.Alike False w.1 s₂ := by
    rcases hcase with ⟨-, hsame⟩ | ⟨hlive, -⟩
    · exact ⟨s', .of_bare hbare (hT ▸ hsame)⟩
    · refine ⟨{ s' with globals := s.globals }, .of_bare hbare ?_⟩
      exact (h.table_plain (hT ▸ hlater) (hT ▸ hlive)).same _ _
  obtain ⟨w', hw, ht, hr⟩ := globalValue_alike depth name hs₂ hscope
  have hprogress := (globalValue_progress (eval_progresses depth) name scope s).globals
  rw [hT] at hprogress
  by_cases hstrays : (globalValue .plain (eval depth) name scope s).2.globals.Strays G
  · refine .stray (w', (globalValue .plain (eval depth) name scope s).2.globals) _ ⟨hw, hprogress⟩
      hstrays ?_ hr
    exact ⟨ht.bare, Fence.none_keeps _ _ _, rfl, hlater.trans hprogress, .inl ⟨hstrays, ht.globals⟩⟩
  · have hlive : ¬w.2.Strays G := fun hs => hstrays (hprogress.strays hs)
    have hG := (hcase.resolve_left fun hs => hlive hs.1).2
    exact h.reads_known hscope hbare (hT ▸ hlater) hT hG hstrays

theorem follows (depth : Nat) :
    (Simulation.replaying T₀ G).Follows (eval depth) (eval depth) := by
  have hS : (Simulation.replaying T₀ G).Sound := Simulation.paired_sound
    (Simulation.plain_aligned id)
  refine Simulation.evalBy_follows_of hS (.inl ⟨rfl, rfl⟩) fun d d' hd _ => ?_
  obtain rfl : d = d' := by omega
  exact h.readsGlobals d

/-- Where the first run left global variables that came to those of the second, their results are
the same, unless the first one was given up. -/
theorem evaluate_again {expr v : Value} {mutables : List String} {defs : Definitions}
    {loopLimit : Nat} {s t s' : Store} (hs : s.globals = T₀) (hs' : s'.globals = G)
    (ht : t.globals.Later G) (hexpr : expr.IsPlain) (hdefs : defs.IsPlain) (hv : v.IsPlain)
    (hdeep : ¬GivenUp expr none mutables defs loopLimit s)
    (hrun : evaluate expr none mutables defs loopLimit s = (.ok v, t)) :
    (evaluate expr none mutables defs loopLimit s').1 = .ok v := by
  have hS : (Simulation.replaying T₀ G).Sound := Simulation.paired_sound
    (Simulation.plain_aligned id)
  let w : Pairing × Table Global := (.empty, T₀)
  have hx : (Simulation.replaying T₀ G).Known w expr expr := hexpr.matches _
  have hsim : (Simulation.replaying T₀ G).Sim w Simulation.isUnknown
      (Simulation.replaying T₀ G).Known (inRoot (eval maxDepth) expr none mutables defs loopLimit)
      (inRoot (eval maxDepth) expr none mutables defs loopLimit) := by
    refine (hS.newFrame .none .nil).seq fun w' hw i i' hi => ?_
    exact h.follows maxDepth (hS.known_mono hw hx) ⟨hS.own_frames hi, hi, rfl, hdefs⟩
  have hstart : (Simulation.replaying T₀ G).store w s s' :=
    ⟨s.bare_alike_empty s', Fence.none_keeps _ _ _, hs, .refl T₀, .inr ⟨h.later.not_strays, hs'⟩⟩
  have hends := hsim s s' hstart
  rw [inRoot_of_evaluate hdeep hrun] at hends
  cases hends with
  | agree w' _ _ hr =>
    rcases hrun' : inRoot (eval maxDepth) expr none mutables defs loopLimit s' with ⟨r, t'⟩
    rw [hrun'] at hr
    cases hr with
    | ok hvv =>
      rw [evaluate_of_inRoot hrun', hv.eq hvv]
  | first hoff => exact hoff.1.elim
  | second hoff => exact (Simulation.Off.not_never id hoff).elim
  | stray w' other _ hstray hs _ =>
    obtain ⟨-, -, hT, -⟩ := hs
    exact (ht.not_strays (hT ▸ hstray)).elim

end Replayable

end PatternLint

/-! Evaluation is repeatable where values do not become code. Whatever has been evaluated in the
meantime, an expression has the value that it had before. -/

namespace PatternLint

section Plain

variable {m : Material} (hm : ¬m.runs)
include hm

/-- Values of a material that is not run hold no closures. -/
theorem Value.MadeOf.isPlain {v : Value} (h : v.MadeOf m) : v.IsPlain := by
  induction h with
  | nil => exact .nil
  | str => exact .str _
  | int => exact .int _
  | float => exact .float _
  | sym => exact .sym _
  | list _ _ ih => exact Value.isPlain_list.2 ih
  | dotted _ _ _ ih iht => exact Value.isPlain_dotted.2 ⟨ih, iht⟩
  | vec _ ih => exact Value.isPlain_vec.2 ih
  | closure hr => exact (hm hr).elim
  | unknown => exact .unknown

theorem Value.Tracked.isPlain {v : Value} (h : v.Tracked m) : v.IsPlain := by
  rcases h with rfl | h
  · exact .unknown
  · exact h.isPlain hm

theorem Store.MadeOf.isPlain {s : Store} (h : s.MadeOf m) : s.globals.IsPlain := by
  intro name g hg
  have hmade := h.globals name g hg
  cases g with
  | pending e => exact Value.MadeOf.isPlain hm hmade
  | busy e => exact Value.MadeOf.isPlain hm hmade
  | known v => exact Value.Tracked.isPlain hm hmade

theorem Definitions.MadeOf.isPlain {defs : Definitions} (h : defs.MadeOf m) : defs.IsPlain := by
  intro name d hd
  have hmade : d.MadeOf m := hd.elim (h.functions name d) (h.macros name d)
  exact ⟨hmade.formals.isPlain hm, fun form hform => (hmade.body form hform).isPlain hm⟩

end Plain

/-- The global variables that evaluations lead to, each of an expression of the material in frames
that hold nothing else. -/
inductive Table.Reaches (m : Material) (defs : Definitions) (T : Table Global) : Table Global → Prop
  | here : Reaches m defs T T
  | evaluate {s : Store} {expr : Value} {env : Option FrameId} {mutables : List String}
      {loopLimit : Nat} (h : Reaches m defs T s.globals) (hs : s.MadeOf m) (hexpr : expr.MadeOf m) :
      Reaches m defs T (PatternLint.evaluate expr env mutables defs loopLimit s).2.globals

namespace Table.Reaches

variable {m : Material} {defs : Definitions} {T U : Table Global}

theorem later (h : T.Reaches m defs U) : T.Later U := by
  induction h with
  | here => exact .refl T
  | evaluate _ _ _ ih => exact ih.trans (evaluate_progress _ _ _ _ _ _).globals

theorem isPlain (h : T.Reaches m defs U) (hm : ¬m.runs) (hu : m.unknown) (hdefs : defs.MadeOf m)
    (hT : T.IsPlain) : U.IsPlain := by
  cases h with
  | here => exact hT
  | evaluate _ hs hexpr => exact (evaluate_madeOf hu hexpr hdefs hs).1.isPlain hm

end Table.Reaches

/-- An expression that is evaluated without variables around it has the same value again after any
other evaluations, if it was not given up. No global variable is left being found by these, and
those that are known keep their values. -/
theorem evaluation_repeatable (s t : Store) (expr v : Value) (mutables : List String)
    (defs : Definitions) (loopLimit : Nat) (U : Table Global) (hexpr : expr.MadeOf .inert)
    (hdefs : defs.MadeOf .inert) (hs : s.MadeOf .inert)
    (hidle : ∀ name e, s.globals.get? name ≠ some (.busy e))
    (hrun : evaluate expr none mutables defs loopLimit s = (.ok v, t))
    (hmore : t.globals.Reaches .inert defs U) :
    (¬GivenUp expr none mutables defs loopLimit s → ∀ s' : Store, s'.globals = U →
        (evaluate expr none mutables defs loopLimit s').1 = .ok v) ∧
      (∀ name e, U.get? name ≠ some (.busy e)) ∧
      ∀ name x, s.globals.get? name = some (.known x) ∨ t.globals.get? name = some (.known x) →
        U.get? name = some (.known x) := by
  have hruns : ¬Material.inert.runs := id
  have hfirst : s.globals.Later t.globals := by
    have hprogress := evaluate_progress expr none mutables defs loopLimit s
    rw [hrun] at hprogress
    exact hprogress.globals
  obtain ⟨ht, hv⟩ := evaluate_ok_madeOf trivial hexpr hdefs hs hrun
  have hreplay : Replayable s.globals U :=
    ⟨hs.isPlain hruns, hmore.isPlain hruns trivial hdefs (ht.isPlain hruns),
      hfirst.trans hmore.later, hidle⟩
  refine ⟨fun hdeep s' hs' => ?_, fun name e he => ?_, fun name x hx => ?_⟩
  · exact hreplay.evaluate_again rfl hs' hmore.later (hexpr.isPlain hruns)
      (hdefs.isPlain hruns) (hv.isPlain hruns) hdeep hrun
  · exact hidle name e (hreplay.later.busy he)
  · rcases hx with hx | hx
    · exact hreplay.later.known hx
    · exact hmore.later.known hx

/-- Two variables whose expressions ask for each other, and a third one. -/
def circular : Store :=
  ⟨#[], 0, ⟨[
    ("a", .pending (.list [.sym "let", .list [.list [.sym "y", .sym "b"]], .int 1])),
    ("b", .pending (.list [.sym "if", .list [.sym "stringp", .sym "a"], .int 2, .sym "k"])),
    ("k", .pending (.int 7))]⟩⟩

theorem circular_inert : circular.MadeOf .inert where
  frames _ _ _ h := by
    obtain ⟨frame, hframe, -⟩ := Option.bind_eq_some_iff.1 h
    cases hframe
  globals name g h := by
    have hmem := Table.mem_of_get? h
    simp only [circular, List.mem_cons, Prod.mk.injEq, List.not_mem_nil, or_false] at hmem
    obtain ⟨-, rfl⟩ | ⟨-, rfl⟩ | ⟨-, rfl⟩ := hmem <;> simp [Global.MadeOf, Material.inert]

/-- The form `(+ a k)`. It makes `b` known as unknown, as `a` is being found then. -/
def sumAK : Value := .list [.sym "+", .sym "a", .sym "k"]

theorem sumAK_repeatable : ∃ t, evaluate sumAK none [] .empty 1000 circular = (.ok (.int 8), t) ∧
    let U := (evaluate (.sym "b") none [] .empty 1000 t).2.globals
    (∀ s' : Store, s'.globals = U → (evaluate sumAK none [] .empty 1000 s').1 = .ok (.int 8)) ∧
      ∀ name e, U.get? name ≠ some (.busy e) := by
  obtain ⟨t, hrun⟩ : ∃ t, evaluate sumAK none [] .empty 1000 circular = (.ok (.int 8), t) :=
    givesInt_ok (by decide +kernel)
  have hexpr : sumAK.MadeOf .inert := by simp [sumAK, Material.inert]
  have hidle : ∀ name e, circular.globals.get? name ≠ some (.busy e) := by
    intro name e h
    simpa [circular] using Table.mem_of_get? h
  have ht : t.MadeOf .inert := (evaluate_ok_madeOf trivial hexpr .empty circular_inert hrun).1
  have hmore : t.globals.Reaches .inert .empty
      (evaluate (.sym "b") none [] .empty 1000 t).2.globals :=
    .evaluate .here ht (by simp [Material.inert])
  have h := evaluation_repeatable circular t sumAK (.int 8) [] .empty 1000 _ hexpr .empty
    circular_inert hidle hrun hmore
  exact ⟨t, hrun, h.1 (not_givenUp hrun (by rintro ⟨⟩)), h.2.1⟩

/-- A variable that is asked for where there is no room left to evaluate it. -/
def deepK : Value :=
  wrapped 999 (.sym "k")

theorem wrapped_madeOf {expr : Value} (h : expr.MadeOf .inert) (n : Nat) :
    (wrapped n expr).MadeOf .inert := by
  induction n with
  | zero => exact h
  | succ n ih =>
    have hhead : (Value.sym "identity").MadeOf .inert := by simp [Material.inert]
    exact .list (List.forall_mem_cons.2 ⟨hhead, List.forall_mem_singleton.2 ih⟩) fun h => h.elim

/-- Once the variable is known there is room enough. -/
theorem deepK_changes :
    deepK.MadeOf .inert ∧ (waiting 0).MadeOf .inert ∧
      (evaluate deepK none [] .empty 1000 (waiting 0)).1 = .ok .unknown ∧
      let t := (evaluate deepK none [] .empty 1000 (waiting 0)).2
      let u := (evaluate (.sym "k") none [] .empty 1000 t).2
      ∃ t', evaluate deepK none [] .empty 1000 u = (.ok (.int 7), t') := by
  have hdeep : deepK.MadeOf .inert := wrapped_madeOf (by simp [Material.inert]) 999
  have hstore : (waiting 0).MadeOf .inert := by
    refine ⟨fun _ _ _ h => ?_, fun name g h => ?_⟩
    · obtain ⟨frame, hframe, -⟩ := Option.bind_eq_some_iff.1 h
      cases hframe
    · have hmem := Table.mem_of_get? h
      simp only [waiting, wrapped, List.mem_singleton, Prod.mk.injEq] at hmem
      obtain ⟨-, rfl⟩ := hmem
      simp [Global.MadeOf]
  exact ⟨hdeep, hstore, givesUnknown_ok (by decide +kernel), givesInt_ok (by decide +kernel)⟩

end PatternLint
