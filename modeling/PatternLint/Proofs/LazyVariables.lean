import PatternLint.Proofs.BackedVariables
import PatternLint.Proofs.CautiousWalk
import PatternLint.Proofs.Progress

/-! Variables whose first definition waits until they are asked for. Their values are those that
they would have got where they are defined, as long as no later definition of another variable comes
in between that matters to them. -/

namespace PatternLint

namespace Analysis

variable (doc : Document)

/-- Defines a variable by the value that its expression has at this moment. -/
def defineAtOnce (name : String) (expr : Value) : Analyze Unit := do
  let v ← value doc expr none []
  Analyze.run fun _ => Eval.putGlobal name (.known v)

/-- Makes definitions one after the other. -/
def defineAll (define : String → Value → Analyze Unit) (ds : List (String × Value)) :
    Analyze Unit :=
  forM ds fun d => define d.1 d.2

/-- The value of a variable after some definitions. -/
def valueAfter (define : String → Value → Analyze Unit) (ds : List (String × Value))
    (name : String) : Analyze Value := do
  defineAll define ds
  value doc (.sym name) none []

variable {doc} {f : Findings} {name : String} {e v : Value} {old : Global} {t : Store}

theorem defineAll_snoc {define : String → Value → Analyze Unit} {ds : List (String × Value)}
    {f' f'' : Findings} (h : defineAll define ds f = (.ok (), f'))
    (h' : define name e f' = (.ok (), f'')) :
    defineAll define (ds ++ [(name, e)]) f = (.ok (), f'') := by
  unfold defineAll at h ⊢
  rw [List.forM_append, Analyze.bind_of_ok h, List.forM_cons, Analyze.bind_of_ok h']
  rfl

theorem value_of_run {s : Store} (h : evaluate e none [] f.defs doc.loopLimit s = (.ok v, t)) :
    value doc e none [] { f with store := s } = (.ok v, { f with store := t }) := by
  rw [value, Analyze.run_apply, h]

theorem defineAtOnce_of_run {s : Store}
    (h : evaluate e none [] f.defs doc.loopLimit s = (.ok v, t)) :
    defineAtOnce doc name e { f with store := s }
      = (.ok (), { f with store := t.withGlobal name (.known v) }) := by
  rw [defineAtOnce, Analyze.bind_of_ok (value_of_run h)]
  rfl

theorem defineGlobal_new (h : f.store.globals.get? name = none) :
    defineGlobal doc name e f
      = (.ok (), { f with store := f.store.withGlobal name (.pending e) }) := by
  have hnew : f.store.globals.contains name = false := by rw [Table.contains, h]; rfl
  rw [defineGlobal, Analyze.bind_of_ok (rfl : Analyze.findings f = (.ok f, f)), hnew]
  rfl

/-- A second definition does what one at once does. -/
theorem defineGlobal_again (h : f.store.globals.get? name = some old) :
    defineGlobal doc name e f = defineAtOnce doc name e f := by
  have hold : f.store.globals.contains name = true := by rw [Table.contains, h]; rfl
  rw [defineGlobal, Analyze.bind_of_ok (rfl : Analyze.findings f = (.ok f, f)), hold]
  rfl

end Analysis

/-- What waits still, and has a known value in the second store, has this value when it is evaluated
there again. -/
def Setting.Undisturbed (k : Setting) (s g : Store) : Prop :=
  ∀ name e v, s.globals.get? name = some (.pending e) → g.globals.get? name = some (.known v) →
    v ≠ .unknown → (k.run e g).1 = .ok v

/-- Definitions that are made in two stores side by side. In the first they wait, unless the
variable was defined before, and in the second each is evaluated at once. A variable is defined
again only where this disturbs none of those that wait. -/
inductive Alongside (k : Setting) : List (String × Value) → Store → Store → Prop
  | nil : Alongside k [] .empty .empty
  | first {ds : List (String × Value)} {s g g' : Store} {name : String} {e v : Value}
      (h : Alongside k ds s g) (hnew : s.globals.get? name = none) (he : e.IsPlain)
      (hrun : k.run e g = (.ok v, g')) (hv : v.IsPlain) :
      Alongside k (ds ++ [(name, e)]) (s.withGlobal name (.pending e))
        (g'.withGlobal name (.known v))
  | again {ds : List (String × Value)} {s s' g g' : Store} {name : String} {e v v' : Value}
      {old : Global} (h : Alongside k ds s g) (hold : s.globals.get? name = some old)
      (he : e.IsPlain) (hrun : k.run e s = (.ok v, s')) (hrun' : k.run e g = (.ok v', g'))
      (hv : v'.IsPlain)
      (hwait : k.Undisturbed (s'.withGlobal name (.known v)) (g'.withGlobal name (.known v'))) :
      Alongside k (ds ++ [(name, e)]) (s'.withGlobal name (.known v))
        (g'.withGlobal name (.known v'))

namespace Table

variable {k : Setting} {E E' T : Table Global} {name : String} {v : Value} {g : Global}

theorem Evaluated.put (h : E.Evaluated) (hv : v.IsPlain) (name : String) :
    (E.put name (.known v)).Evaluated := by
  intro i g hi
  rw [get?_put] at hi
  split at hi
  · cases hi
    exact ⟨v, rfl, hv⟩
  · exact h i g hi

theorem within_put (h : E.get? name = none) (v : Value) : E.Within (E.put name (.known v)) := by
  intro i x hi
  rw [get?_put_of_ne ?_, hi]
  rintro rfl
  rw [h] at hi
  cases hi

theorem absent_put (h : ∀ i, T.get? i = none → E.get? i = none) (name : String) (g g' : Global) :
    ∀ i, (T.put name g).get? i = none → (E.put name g').get? i = none := by
  intro i hi
  rw [get?_put] at hi ⊢
  split at hi
  · cases hi
  · rw [if_neg ‹_›]
    exact h i hi

theorem Backs.mono (h : E.Backs k name g) (hE : E.Within E') (hsame : E'.get? name = E.get? name) :
    E'.Backs k name g := by
  cases g with
  | known v => exact fun x hx => h x (hsame ▸ hx)
  | pending e => exact ⟨h.1, fun x hx hk => (h.2 x (hsame ▸ hx) hk).mono hE⟩
  | busy e => trivial

end Table

/-- Careful runs are runs of the language. -/
theorem Setting.run_plain {k : Setting} {expr v : Value} {s t : Store}
    (h : k.run expr s = (.ok v, t)) : evaluate expr none [] k.defs k.limit s = (.ok v, t) :=
  (Supervision.run_of_checked (.inl rfl) (Policy.careful_checks Store.Calm k.free) (Nat.zero_le _)
    h).1

theorem Frames.lookup?_bare (fs : Frames) (name : String) :
    Frames.lookup? (fs.push ⟨.ofList [], none⟩) name fs.size = none := by
  rw [Frames.lookup?, Frames.find?]
  simp [Table.ofList, Table.contains]

/-- A name has a value where all variables have one. -/
theorem Setting.run_name (k : Setting) {g : Store} (hE : g.globals.Evaluated) (name : String) :
    ∃ v t, k.run (.sym name) g = (.ok v, t) ∧ v.IsPlain := by
  let u : Store := { g with frames := g.frames.push ⟨.ofList [], none⟩ }
  have hrun {v : Value} (h : evalBy (.careful k.free) (999 + 1) (.sym name) g.frames.size
      ⟨k.defs, g.frames.size, [], [], [], k.limit⟩ u = (.ok v, u)) :
      k.run (.sym name) g = (.ok v, u) :=
    Eval.orDefault_ok .unknown h
  cases hsym : u.frames.symbol? name g.frames.size with
  | some v =>
    refine ⟨v, u, hrun (evalBy_symbol hsym), ?_⟩
    simp only [Frames.symbol?, u, Frames.lookup?_bare] at hsym
    split at hsym
    · cases hsym
      exact .nil
    · split at hsym
      · cases hsym
        exact .sym name
      · cases hsym
  | none =>
    cases hg : g.globals.get? name with
    | none => exact ⟨_, u, hrun ((evalBy_global hsym).trans (globalValue_none hg)), .unknown⟩
    | some old =>
      obtain ⟨v, rfl, hv⟩ := hE name old hg
      exact ⟨v, u, hrun ((evalBy_global hsym).trans (globalValue_known hg)), hv⟩

theorem Value.Consistent.of_loose {c : Labels} {v v' : Value} (h : Loose True c v v')
    (hv : v'.IsPlain) : v.Consistent v' := by
  intro hk hk'
  rcases h with h | ⟨-, rfl | rfl⟩
  · exact hv.eq_of h
  · exact (hk rfl).elim
  · exact (hk' rfl).elim

namespace Table.Backed

variable {k : Setting} {E T : Table Global} {name : String} {e v v' : Value} {s g : Store}

/-- A first definition that waits, beside the value that it has at once. -/
theorem first (h : E.Backed k T) (hnew : T.get? name = none) (hnone : E.get? name = none)
    (he : e.IsPlain) (hrun : E.Warrants k e v) :
    (E.put name (.known v)).Backed k (T.put name (.pending e)) := by
  have hwithin := within_put hnone v
  refine Backed.put (fun i x hi => ?_) ⟨he, fun x hx _ => ?_⟩
  · refine (h i x hi).mono hwithin (get?_put_of_ne ?_)
    rintro rfl
    rw [hnew] at hi
    cases hi
  · rw [get?_put_self] at hx
    cases hx
    exact hrun.mono hwithin

/-- A further definition that changes nothing for what waits. -/
theorem again (h : g.globals.Backed k s.globals) (hE : (g.globals.put name (.known v')).Evaluated)
    (hv : v.Consistent v')
    (hwait : k.Undisturbed (s.withGlobal name (.known v)) (g.withGlobal name (.known v'))) :
    (g.globals.put name (.known v')).Backed k (s.globals.put name (.known v)) := by
  intro i x hi
  by_cases hname : i = name
  · subst hname
    rw [get?_put_self] at hi
    cases hi
    intro y hy
    rw [get?_put_self] at hy
    cases hy
    exact hv
  · have hx := h i x (by rwa [get?_put_of_ne hname] at hi)
    have hsame : (g.globals.put name (.known v')).get? i = g.globals.get? i := get?_put_of_ne hname
    cases x with
    | known v => exact fun y hy => hx y (hsame ▸ hy)
    | pending e =>
      exact ⟨hx.1, fun y hy hk => ⟨_, _, hE, fun _ _ => id, Prod.ext (hwait i e y hi hy hk) rfl⟩⟩
    | busy e => trivial

end Table.Backed

namespace Alongside

variable {k : Setting} {ds : List (String × Value)} {s g : Store}

/-- All variables have values in the second store, which back those of the first. -/
theorem backed (h : Alongside k ds s g) (hdefs : k.defs.IsPlain) :
    g.globals.Evaluated ∧ g.globals.Backed k s.globals ∧
      ∀ name, s.globals.get? name = none → g.globals.get? name = none := by
  induction h with
  | nil => exact ⟨nofun, nofun, fun _ => id⟩
  | @first ds s g g' name e v h hnew he hrun hv ih =>
    obtain ⟨hE, hs, hnone⟩ := ih
    obtain ⟨-, hg'⟩ := Setting.run_settled hE rfl hrun
    simp only [Store.withGlobal, hg']
    exact ⟨hE.put hv name, hs.first hnew (hnone name hnew) he ⟨g, g', hE, fun _ _ => id, hrun⟩,
      Table.absent_put hnone name _ _⟩
  | @again ds s s' g g' name e v v' old h hold he hrun hrun' hv hwait ih =>
    obtain ⟨hE, hs, hnone⟩ := ih
    obtain ⟨hs', hg', c, hvv⟩ := Setting.run_consistent hdefs hE he hs rfl hrun hrun'
    rw [← hg'] at hs' hE
    have hkept : s.globals.Later s'.globals := by
      have hprogress := evaluate_progress e none [] k.defs k.limit s
      rw [Setting.run_plain hrun] at hprogress
      exact hprogress.globals
    refine ⟨hE.put hv name, hs'.again (hE.put hv name) (.of_loose hvv hv) hwait,
      Table.absent_put (fun i hi => ?_) name _ _⟩
    rw [hg']
    exact hnone i (hkept.none_iff.mpr hi)

open Analysis in
/-- The two ways to define variables come to the two stores. -/
theorem define {free : Value → Bool} {doc : Document} {f : Findings}
    (h : Alongside ⟨free, f.defs, doc.loopLimit⟩ ds s g) (hf : f.store = .empty) :
    defineAll (defineGlobal doc) ds f = (.ok (), { f with store := s }) ∧
      defineAll (defineAtOnce doc) ds f = (.ok (), { f with store := g }) := by
  generalize hk : Setting.mk free f.defs doc.loopLimit = k at h
  -- Where the careful run of an expression ends, its definition at once ends as well.
  have hnow {s t : Store} {name : String} {e v : Value} (hrun : k.run e s = (.ok v, t)) :
      defineAtOnce doc name e { f with store := s }
        = (.ok (), { f with store := t.withGlobal name (.known v) }) := by
    have hplain := Setting.run_plain hrun
    rw [← hk] at hplain
    exact defineAtOnce_of_run hplain
  induction h with
  | nil => exact ⟨by rw [← hf]; rfl, by rw [← hf]; rfl⟩
  | first _ hnew _ hrun _ ih =>
    exact ⟨defineAll_snoc ih.1 (defineGlobal_new hnew), defineAll_snoc ih.2 (hnow hrun)⟩
  | again _ hold _ hrun hrun' _ _ ih =>
    exact ⟨defineAll_snoc ih.1 ((defineGlobal_again hold).trans (hnow hrun)),
      defineAll_snoc ih.2 (hnow hrun')⟩

end Alongside

open Analysis in
/-- A variable that is evaluated when it is asked for has the value that it has when each definition
is evaluated at once, as far as both are known. -/
theorem lazyVariable_agrees (free : Value → Bool) (doc : Document) (f : Findings)
    (ds : List (String × Value)) (s g t : Store) (name : String) (v : Value)
    (hfresh : f.store = .empty) (hdefs : f.defs.IsPlain)
    (h : Alongside ⟨free, f.defs, doc.loopLimit⟩ ds s g)
    (hrun : Setting.run ⟨free, f.defs, doc.loopLimit⟩ (.sym name) s = (.ok v, t)) :
    ∃ v' f' f'', valueAfter doc (defineGlobal doc) ds name f = (.ok v, f') ∧
      valueAfter doc (defineAtOnce doc) ds name f = (.ok v', f'') ∧
      (v ≠ .unknown → v' ≠ .unknown → v = v') := by
  obtain ⟨hlazy, honce⟩ := h.define hfresh
  obtain ⟨hE, hs, -⟩ := h.backed hdefs
  obtain ⟨v', t', hrun', hv'⟩ := Setting.run_name ⟨free, f.defs, doc.loopLimit⟩ hE name
  obtain ⟨-, -, c, hsame⟩ := Setting.run_consistent hdefs hE (.sym name) hs rfl hrun hrun'
  refine ⟨v', { f with store := t }, { f with store := t' }, ?_, ?_,
    Value.Consistent.of_loose hsame hv'⟩
  · exact (Analyze.bind_of_ok hlazy).trans (value_of_run (Setting.run_plain hrun))
  · exact (Analyze.bind_of_ok honce).trans (value_of_run (Setting.run_plain hrun'))

/-! ### Definitions of two variables -/

section

variable {k : Setting} {free : Value → Bool} {name : String} {e v : Value} {s t : Store}

/-- The store in a fresh frame with nothing around it. -/
def Store.entered (s : Store) : Store :=
  { s with frames := s.frames.push ⟨.ofList [], none⟩ }

/-- A name that is not a constant of the language. -/
def IsVariable (name : String) : Prop :=
  name ≠ "nil" ∧ ¬ (name = "t" ∨ Value.isKeywordName name)

instance (name : String) : Decidable (IsVariable name) :=
  inferInstanceAs (Decidable (_ ∧ _))

theorem symbol?_bare (hname : IsVariable name) (fs : Frames) :
    Frames.symbol? (fs.push ⟨.ofList [], none⟩) name fs.size = none := by
  rw [Frames.symbol?, if_neg hname.1, if_neg hname.2, Frames.lookup?_bare]

theorem Setting.run_constant (k : Setting) (s : Store) (h : e.constant? = some v) :
    k.run e s = (.ok v, s.entered) :=
  Eval.orDefault_ok .unknown (evalBy_constant h : evalBy _ (999 + 1) _ _ _ _ = _)

theorem Setting.run_known (k : Setting) (hname : IsVariable name)
    (h : s.globals.get? name = some (.known v)) : k.run (.sym name) s = (.ok v, s.entered) := by
  have hglobal : evalBy (.careful k.free) (999 + 1) (.sym name) s.frames.size
      ⟨k.defs, s.frames.size, [], [], [], k.limit⟩ s.entered = (.ok v, s.entered) :=
    (evalBy_global (symbol?_bare hname _)).trans (globalValue_known h)
  exact Eval.orDefault_ok .unknown hglobal

/-- A waiting variable whose expression comes to a known value. -/
theorem evalBy_pending {scope : Scope} {depth : Nat} {fs : Frames} (hname : IsVariable name)
    (hs : s.frames = fs.push ⟨.ofList [], none⟩) (he : s.globals.get? name = some (.pending e))
    (h : evalBy (.careful free) depth e s.frames.size ⟨scope.defs, s.frames.size, [], [], [],
      scope.loopLimit⟩ (s.finding name e) = (.ok v, t)) (hv : v ≠ .unknown)
    (hfree : free e.erased = false) :
    evalBy (.careful free) (depth + 1) (.sym name) fs.size scope s
      = (.ok v, t.withGlobal name (.known v)) := by
  have hsym : s.frames.symbol? name fs.size = none := hs ▸ symbol?_bare hname fs
  have hfind : Evaluation.findValue (.careful free) (evalBy (.careful free) depth) e s.frames.size
      scope (s.finding name e) = (.ok v, t) :=
    Policy.careful_findValue ⟨.refl (Nat.le_refl _), Nat.le_refl _⟩ h hv hfree
  rw [evalBy_global hsym, globalValue_pending he, hfind]
  rfl

end

/-- No operand is free to be unknown. -/
def strictly : Setting :=
  ⟨fun _ => false, .empty, 1000⟩

/-- A text in which no pattern has a problem. -/
def blank : Analysis.Document :=
  ⟨"a.el", [], fun _ => .ok [], fun _ => .ok [], 1000⟩

def textB : Value := .str "b"

/-- The variables `y` and `x` wait for their values. -/
def bothWait : Store :=
  (Store.empty.withGlobal "y" (.pending textB)).withGlobal "x" (.pending (.sym "y"))

/-- What is left when `x` was asked for. -/
def bothFound : Store :=
  ((((bothWait.entered.finding "x" (.sym "y")).finding "y" textB).withGlobal "y"
    (.known textB)).withGlobal "x" (.known textB))

theorem x_found : strictly.run (.sym "x") bothWait = (.ok textB, bothFound) := by
  have hy {scope : Scope} : evalBy (.careful strictly.free) (998 + 1) (.sym "y")
      bothWait.entered.frames.size scope (bothWait.entered.finding "x" (.sym "y")) = (.ok textB,
        ((bothWait.entered.finding "x" (.sym "y")).finding "y" textB).withGlobal "y"
          (.known textB)) :=
    evalBy_pending (by decide) rfl rfl (evalBy_constant rfl : evalBy _ (997 + 1) _ _ _ _ = _) nofun
      rfl
  exact Eval.orDefault_ok .unknown (evalBy_pending (by decide) rfl rfl hy nofun rfl)

/-- No variable waits. -/
def Table.Found (T : Table Global) : Prop :=
  ∀ name e, T.get? name ≠ some (.pending e)

theorem Table.Found.put {T : Table Global} (h : T.Found) (name : String) (v : Value) :
    (T.put name (.known v)).Found := by
  intro i e hi
  rw [get?_put] at hi
  split at hi
  · cases hi
  · exact h i e hi

theorem Table.Found.undisturbed {s : Store} (h : s.globals.Found) (k : Setting) (g : Store) :
    k.Undisturbed s g :=
  fun name e _ he => absurd he (h name e)

theorem bothFound_found : bothFound.globals.Found := by
  intro name e
  simp only [bothFound, bothWait, Store.withGlobal, Store.finding, Store.entered, Table.get?_put,
    Store.empty, Table.get?_empty]
  grind

/-- The variable `w` waits for the value of `x`, which is found by then. -/
def stillWaits : Store :=
  (bothFound.withGlobal "y" (.known textB)).withGlobal "w" (.pending (.sym "x"))

/-- The variable `y` is defined for the last time. -/
def redefined : Store :=
  stillWaits.entered.withGlobal "y" (.known (.str "c"))

/-- What `w` waits for is known. -/
theorem redefined_undisturbed {g : Store} (hw : g.globals.get? "w" = some (.known textB))
    (hx : g.globals.get? "x" = some (.known textB)) : strictly.Undisturbed redefined g := by
  intro name e v he hv _
  obtain ⟨rfl, rfl⟩ : name = "w" ∧ e = .sym "x" := by
    simp only [redefined, stillWaits, Store.withGlobal, Store.entered, Table.get?_put] at he
    have hfound := bothFound_found name e
    grind
  obtain rfl : textB = v := Global.known.inj (Option.some.inj (hw.symm.trans hv))
  exact congrArg Prod.fst (strictly.run_known (by decide) hx)

theorem w_found : ∃ t, strictly.run (.sym "w") redefined = (.ok textB, t) := by
  have hx {scope : Scope} : evalBy (.careful strictly.free) (998 + 1) (.sym "x")
      redefined.entered.frames.size scope (redefined.entered.finding "w" (.sym "x")) = (.ok textB,
        redefined.entered.finding "w" (.sym "x")) :=
    (evalBy_global (symbol?_bare (by decide) _)).trans (globalValue_known rfl)
  exact ⟨_, Eval.orDefault_ok .unknown (evalBy_pending (by decide) rfl rfl hx nofun rfl)⟩

open Analysis in
/-- The variable `x` is asked for, for another definition of `y`, before `y` is defined for the last
time, and `w`, which waits all the while, takes nothing but `x`. -/
theorem askedInTime_agrees : ∃ v' f' f'',
    valueAfter blank (defineGlobal blank) [("y", textB), ("x", .sym "y"), ("y", .sym "x"),
      ("w", .sym "x"), ("y", .str "c")] "w" .empty = (.ok textB, f') ∧
    valueAfter blank (defineAtOnce blank) [("y", textB), ("x", .sym "y"), ("y", .sym "x"),
      ("w", .sym "x"), ("y", .str "c")] "w" .empty = (.ok v', f'') ∧
    (textB ≠ .unknown → v' ≠ .unknown → textB = v') := by
  have hfirst : Alongside strictly [("y", textB)] (Store.empty.withGlobal "y" (.pending textB)) _ :=
    .first .nil rfl (.str _) (strictly.run_constant _ rfl) (.str _)
  have hwait : Alongside strictly [("y", textB), ("x", .sym "y")] bothWait _ :=
    hfirst.first rfl (.sym "y") (strictly.run_known (by decide) rfl) (.str _)
  have hfound : Alongside strictly [("y", textB), ("x", .sym "y"), ("y", .sym "x")]
      (bothFound.withGlobal "y" (.known textB)) _ :=
    hwait.again rfl (.sym "x") x_found (strictly.run_known (by decide) rfl) (.str _)
      ((bothFound_found.put _ _).undisturbed _ _)
  have hstill : Alongside strictly [("y", textB), ("x", .sym "y"), ("y", .sym "x"),
      ("w", .sym "x")] stillWaits _ :=
    hfound.first rfl (.sym "x") (strictly.run_known (by decide) rfl) (.str _)
  have hlast : Alongside strictly [("y", textB), ("x", .sym "y"), ("y", .sym "x"), ("w", .sym "x"),
      ("y", .str "c")] redefined _ :=
    hstill.again rfl (.str "c") (strictly.run_constant _ rfl) (strictly.run_constant _ rfl) (.str _)
      (redefined_undisturbed rfl rfl)
  obtain ⟨t, hw⟩ := w_found
  exact lazyVariable_agrees strictly.free blank .empty _ _ _ _ "w" textB rfl nofun hlast hw

/-- The text of a result. -/
def text? : Except Fault Value → Option String
  | .ok (.str text) => some text
  | _ => none

theorem ok_of_text {r : Except Fault Value} {text : String} (h : text? r = some text) :
    r = .ok (.str text) := by
  unfold text? at h
  split at h
  · cases h
    rfl
  · cases h

open Analysis in
/-- The variable `x` is asked for when `y`, with which it is defined, is something else. -/
theorem askedTooLate_differs :
    (valueAfter blank (defineGlobal blank) [("y", textB),
      ("x", .list [.sym "concat", .sym "y", .str "1"]), ("y", .str "c")] "x" .empty).1
        = .ok (.str "c1") ∧
    (valueAfter blank (defineAtOnce blank) [("y", textB),
      ("x", .list [.sym "concat", .sym "y", .str "1"]), ("y", .str "c")] "x" .empty).1
        = .ok (.str "b1") :=
  ⟨ok_of_text (by decide +kernel), ok_of_text (by decide +kernel)⟩

end PatternLint
