import PatternLint.Proofs.ReportAccounting
import PatternLint.Proofs.WalkRules
import PatternLint.Scan.Result

/-! Where code stands in a text, and that the walk comes to all of it: a call with a literal regexp
in such a place is checked. -/

namespace PatternLint.Analysis

open Reader (Path)
open Report (hidden)

/-- The construct of a head, by its own name or by what that stands for. -/
def constructOf (defs : Definitions) (head : String) : Option Construct :=
  match Construct.named? head with
  | some c => some c
  | none => Construct.named? (defs.resolve head)

/-- A part of a form is code. The path leads there from the form, and the step next
to the part comes first. -/
inductive CodePart (defs : Definitions) : Value → Path → Value → Prop
  | item {items : List Value} {i : Nat} {v : Value} (hhead : ∀ name, items.head? ≠ some (.sym name))
      (hv : items[i]? = some v) : CodePart defs (.list items) [i] v
  | argument {head : String} {args : List Value} {i : Nat} {v : Value}
      (hc : constructOf defs head = none) (hv : args[i]? = some v) :
      CodePart defs (.list (.sym head :: args)) [i + 1] v
  | operand {head : String} {args : List Value} {i : Nat} {v : Value}
      (hc : constructOf defs head = some .sequence ∨ constructOf defs head = some .conditional)
      (hv : args[i]? = some v) : CodePart defs (.list (.sym head :: args)) [i + 1] v
  | clause {head : String} {args items : List Value} {i j : Nat} {v : Value}
      (hc : constructOf defs head = some .cond) (hclause : args[i]? = some (.list items))
      (hv : items[j]? = some v) : CodePart defs (.list (.sym head :: args)) [j, i + 1] v
  | init {head name : String} {items body : List Value} {bs : List (String × Value)} {i : Nat}
      {v : Value} (hc : constructOf defs head = some .letForm)
      (hbs : Evaluation.bindings? (.list items) = some bs)
      (hv : items[i]? = some (.list [.sym name, v])) :
      CodePart defs (.list (.sym head :: .list items :: body)) [1, i, 1] v
  | letBody {head : String} {bindings : Value} {body : List Value} {bs : List (String × Value)}
      {i : Nat} {v : Value} (hc : constructOf defs head = some .letForm)
      (hbs : Evaluation.bindings? bindings = some bs) (hv : body[i]? = some v) :
      CodePart defs (.list (.sym head :: bindings :: body)) [i + 2] v
  | range {head name : String} {range body : List Value} {i : Nat} {v : Value}
      (hc : constructOf defs head = some .loop) (hv : range[i]? = some v) :
      CodePart defs (.list (.sym head :: .list (.sym name :: range) :: body)) [i + 1, 1] v
  | loopBody {head name : String} {range body : List Value} {i : Nat} {v : Value}
      (hc : constructOf defs head = some .loop) (hv : body[i]? = some v) :
      CodePart defs (.list (.sym head :: .list (.sym name :: range) :: body)) [i + 2] v
  | lambdaBody {head : String} {formals : Value} {body : List Value} {i : Nat} {v : Value}
      (hc : constructOf defs head = some .lambda) (hv : body[i]? = some v) :
      CodePart defs (.list (.sym head :: formals :: body)) [i + 2] v
  | definitionBody {head : String} {name formals : Value} {body : List Value} {i : Nat} {v : Value}
      (hc : constructOf defs head = some .definition) (hv : body[i]? = some v) :
      CodePart defs (.list (.sym head :: name :: formals :: body)) [i + 3] v
  | assigned {head : String} {args : List Value} {i : Nat} {v : Value}
      (hc : constructOf defs head = some .assignment) (hv : args[2 * i + 1]? = some v) :
      CodePart defs (.list (.sym head :: args)) [2 * i + 2] v
  | defined {head : String} {args : List Value} {v : Value}
      (hc : constructOf defs head = some .definitionOfVariable) (hv : args[1]? = some v) :
      CodePart defs (.list (.sym head :: args)) [2] v

/-- A part of the forms of a text is code, at a path from the form at an offset. -/
inductive CodePosition (defs : Definitions) (forms : List (Value × Nat)) : Nat → Path → Value → Prop
  | top {form : Value} {offset : Nat} (h : (form, offset) ∈ forms) :
      CodePosition defs forms offset [] form
  | part {form v : Value} {offset : Nat} {path steps : Path}
      (h : CodePosition defs forms offset path form) (hpart : CodePart defs form steps v) :
      CodePosition defs forms offset (steps ++ path) v

/-! What a walk does not undo -/

/-- No definition changes, no report is taken back, and the log stays as it should be. -/
structure Onward (doc : Document) (s t : Findings) : Prop where
  defs : t.defs = s.defs
  seen : s.log.seen ⊆ t.log.seen
  kept : s.log.Kept doc.file doc.text → t.log.Kept doc.file doc.text

variable {doc : Document} {s t u s' t' f : Findings}

namespace Onward

/-- Nothing is taken back by doing nothing. -/
theorem refl (doc : Document) (s : Findings) : Onward doc s s :=
  ⟨rfl, List.Subset.refl _, id⟩

/-- Steps of a walk add up. -/
theorem trans (h : Onward doc s t) (h' : Onward doc t u) : Onward doc s u :=
  ⟨h'.defs.trans h.defs, List.Subset.trans h.seen h'.seen, h'.kept ∘ h.kept⟩

/-- Only the store may have changed. -/
theorem of_store (hdefs : t.defs = s.defs) (hlog : t.log = s.log) : Onward doc s t :=
  ⟨hdefs, hlog ▸ List.Subset.refl _, fun h => hlog ▸ h⟩

end Onward

/-- Nothing is asked of the forms, the frames and the values. -/
def onward (doc : Document) : WalkRules where
  Fine _ := True
  Later := Onward doc
  refl := Onward.refl doc
  trans := Onward.trans
  Stands _ _ _ := True
  Own _ _ := True
  Code _ := True
  Result _ := True

open WalkRules (Lawful)

/-- Whatever only adds to the log goes onward. -/
theorem onward_of {α : Type} {m : Analyze α} {Q : Findings → α → Prop}
    (h : ∀ s, Onward doc s (m s).2) (hQ : ∀ s a, Q s a) : (onward doc).Goes s Q m :=
  fun t _ _ => ⟨h t, trivial, fun a _ => hQ _ a⟩

theorem onward_run {α : Type} {m : Definitions → Eval α} {Q : Findings → α → Prop}
    (hQ : ∀ s a, Q s a) : (onward doc).Goes s Q (Analyze.run m) :=
  onward_of (fun _ => .of_store rfl rfl) hQ

/-- Every operation of a walk goes onward, so walks do as a whole. -/
theorem onward_lawful (doc : Document) : (onward doc).Lawful doc where
  stands_later _ _ := trivial
  stands_mono _ _ := trivial
  own_later _ _ := trivial
  code_nil := trivial
  code_list _ _ _ := trivial
  code_dotted _ _ _ := trivial
  code_cdr _ := trivial
  result_unknown := trivial
  site _ _ := .done
  report w message _ offset path index := by
    refine onward_of (m := Analysis.report doc message offset path index)
      (fun s => ?_) fun _ _ => trivial
    rw [report_apply]
    split
    · exact ⟨rfl, fun _ h => Report.Log.mem_seen_add.mpr (.inr h), fun h => h.add _ _⟩
    · exact .refl doc s
  value _ _ := onward_run fun _ _ => trivial
  structural _ _ := onward_run fun _ _ => trivial
  newFrame _ _ := onward_run fun _ _ => ⟨trivial, trivial⟩
  define _ _ _ := onward_run fun _ _ => trivial
  set _ _ _ := onward_run fun _ _ => trivial
  global {_ name expr} _ := by
    refine onward_of (fun s => ?_) fun _ _ => trivial
    rw [defineGlobal, Analyze.bind_apply]
    change Onward doc s ((if s.store.globals.contains name then _ else _ : Analyze Unit) s).2
    split
    · rw [Analyze.bind_apply, value, Analyze.run_apply]
      rcases (evaluate expr none [] s.defs doc.loopLimit s.store).1 with _ | v
      · exact .of_store rfl rfl
      · exact .of_store rfl rfl
    · exact .of_store rfl rfl
  checked _ _ _ := onward_of (fun _ => .of_store rfl rfl) fun _ _ => trivial

/-! What a walk comes to -/

/-- Between two findings a part was visited at a path from the form at an offset. -/
def ComesTo (doc : Document) (visit : Visitor) (v : Value) (offset : Nat) (path : Path)
    (s t : Findings) : Prop :=
  ∃ (p : Place) (f g : Findings), p.offset = offset ∧ p.path = path ∧ Onward doc s f ∧
    visit v p f = (.ok (), g) ∧ Onward doc g t

/-- An analysis visits a part there before it ends, if it does not end in a fault. -/
def Reaches (doc : Document) (visit : Visitor) (v : Value) (offset : Nat) (path : Path)
    (s : Findings) {α : Type} (m : Analyze α) : Prop :=
  ∀ a t, m s = (.ok a, t) → ComesTo doc visit v offset path s t

variable {α β : Type} {visit visit' : Visitor} {v : Value} {offset : Nat} {path : Path} {p : Place}
  {m : Analyze α} {k : α → Analyze β} {Q : Findings → α → Prop} {items args body : List Value}
  {i index : Nat}

/-- A visit on the way is a visit on a longer way. -/
theorem ComesTo.widen (h : ComesTo doc visit v offset path s t) (hs : Onward doc s' s)
    (ht : Onward doc t t') : ComesTo doc visit v offset path s' t' := by
  obtain ⟨p, f, g, hoffset, hpath, hf, hvisit, hg⟩ := h
  exact ⟨p, f, g, hoffset, hpath, hs.trans hf, hvisit, hg.trans ht⟩

theorem onward_of_goes {a : α} (h : (onward doc).Goes s Q m) (hm : m s = (.ok a, t)) :
    Onward doc s t := by
  have := (h s (.refl doc s) trivial).1
  rwa [hm] at this

namespace Reaches

/-- The visitor itself reaches the expression that it is given. -/
theorem here (hoffset : p.offset = offset) (hpath : p.path = path) :
    Reaches doc visit v offset path s (visit v p) :=
  fun _ t h => ⟨p, s, t, hoffset, hpath, .refl doc s, h, .refl doc t⟩

theorem congr {m' : Analyze α} (h : Reaches doc visit v offset path s m') (heq : m s = m' s) :
    Reaches doc visit v offset path s m :=
  fun a t hm => h a t (heq ▸ hm)

/-- What the first step reaches is reached if what follows goes onward. -/
theorem first (h : Reaches doc visit v offset path s m) (hk : ∀ t a, (onward doc).Does t (k a)) :
    Reaches doc visit v offset path s (m >>= k) := by
  intro b t hrun
  obtain ⟨a, u, hm, hb⟩ := Analyze.bind_eq_ok hrun
  exact (h a u hm).widen (.refl doc s) (onward_of_goes (hk u a) hb)

/-- What the second step reaches is reached behind whatever the first one did. -/
theorem behind (hm : (onward doc).Goes s Q m)
    (hk : ∀ t a, Onward doc s t → Reaches doc visit v offset path t (k a)) :
    Reaches doc visit v offset path s (m >>= k) := by
  intro b t hrun
  obtain ⟨a, u, hm', hb⟩ := Analyze.bind_eq_ok hrun
  have hu := onward_of_goes hm hm'
  exact (hk u a hu b t hb).widen hu (.refl doc t)

end Reaches

section Parts

variable (hv : (onward doc).Visits visit)
include hv

omit hv in
theorem onward_frame {outer : Option FrameId} {bindings : List (String × Value)} :
    (onward doc).Does s (newFrame outer bindings) :=
  onward_run fun _ _ => trivial

theorem onward_items : (onward doc).Does s (visitItems visit p index items) :=
  (onward_lawful doc).visitItems hv (fun _ _ => trivial) trivial

/-- Each of a list of expressions is visited at its own index. -/
theorem reaches_item (hi : items[i]? = some v) :
    Reaches doc visit v p.offset ((i + index) :: p.path) s (visitItems visit p index items) := by
  induction items generalizing s i index with
  | nil => cases hi
  | cons item rest ih =>
    cases i with
    | zero =>
      cases hi
      rw [Nat.zero_add]
      exact .first (.here rfl rfl) fun _ _ => onward_items hv
    | succ i =>
      refine .behind (hv s item _ trivial trivial) fun t _ _ => ?_
      rw [Nat.add_right_comm]
      exact ih hi

theorem reaches_scope {formals : Value} (hi : body[i]? = some v) :
    Reaches doc visit v p.offset ((i + index) :: p.path) s
      (enterScope visit formals index body p) :=
  .behind onward_frame fun _ _ _ => reaches_item hv hi

/-- Bindings are visited in turn; the forms before this one may bind its variables. -/
theorem reaches_binding {sequential : Bool} {frame : FrameId} {name : String}
    {names : List String} {bs : List (String × Value)} (hi : bs[i]? = some (name, v)) :
    Reaches doc visit v p.offset (1 :: (i + index) :: 1 :: p.path) s
      (visitBindings doc visit sequential frame p index names bs) := by
  have hL := onward_lawful doc
  induction bs generalizing s i index names with
  | nil => cases hi
  | cons b rest ih =>
    cases i with
    | zero =>
      cases hi
      rw [Nat.zero_add]
      refine .first (.here (by split <;> rfl) (by split <;> rfl)) fun _ _ => ?_
      refine .bind (hL.valueAt trivial trivial) fun _ _ _ _ => ?_
      refine .bind (onward_run fun _ _ => trivial) fun _ _ _ _ => ?_
      exact hL.visitBindings hv (fun _ _ => trivial) trivial trivial trivial
    | succ i =>
      refine .behind (hv s b.2 _ trivial trivial) fun t _ _ => ?_
      refine .behind (hL.valueAt trivial trivial) fun t _ _ => ?_
      refine .behind (onward_run fun _ _ => trivial) fun t _ _ => ?_
      rw [Nat.add_right_comm]
      exact ih hi

/-- An expression of a clause has two indices, that of the clause and its own. -/
theorem reaches_clause {j : Nat} (hclause : args[i]? = some (.list items))
    (hj : items[j]? = some v) :
    Reaches doc visit v p.offset (j :: (i + index) :: p.path) s
      (visitClauses visit p index args) := by
  have hL := onward_lawful doc
  induction args generalizing s i index with
  | nil => cases hclause
  | cons clause clauses ih =>
    cases i with
    | zero =>
      cases hclause
      rw [Nat.zero_add]
      cases items with
      | nil => cases hj
      | cons test body =>
        have hrest : ∀ t, (onward doc).Does t (do
            visitItems visit (p.fixed.part index) 1 body
            visitClauses visit p (index + 1) clauses) := fun t =>
          .bind (onward_items hv) fun _ _ _ _ =>
            hL.visitClauses hv (fun _ _ => trivial) trivial
        cases j with
        | zero =>
          cases hj
          exact .first (.here (by split <;> rfl) (by split <;> rfl)) fun t _ => hrest t
        | succ j =>
          refine .behind (hv s test _ trivial trivial) fun t _ _ => ?_
          refine .first (reaches_item hv (p := p.fixed.part index) hj) fun u _ => ?_
          exact hL.visitClauses hv (fun _ _ => trivial) trivial
    | succ i =>
      rw [Nat.add_right_comm]
      unfold visitClauses
      split
      · refine .behind (hv s _ _ trivial trivial) fun t _ _ => ?_
        exact .behind (onward_items hv) fun u _ _ => ih hclause
      · exact ih hclause

/-- Every second argument of an assignment is an expression. -/
theorem reaches_assigned (args : List Value) {s : Findings} {index i : Nat}
    (hi : args[2 * i + 1]? = some v) :
    Reaches doc visit v p.offset ((2 * i + 1 + index) :: p.path) s
      (visitPairs doc visit p index args) := by
  have hL := onward_lawful doc
  match args with
  | [] => cases hi
  | [_] => cases hi
  | target :: expr :: rest =>
    rw [visitPairs_cons]
    cases i with
    | zero =>
      cases hi
      refine .first (.here rfl ?_) fun _ _ => ?_
      · rw [Place.part, Nat.add_comm index]
      · refine .bind (hL.assignTarget target trivial trivial) fun _ _ _ _ => ?_
        exact hL.visitPairs rest hv (fun _ _ => trivial) trivial
    | succ i =>
      refine .behind (hv s expr _ trivial trivial) fun t _ _ => ?_
      refine .behind (hL.assignTarget target trivial trivial) fun u _ _ => ?_
      rw [show 2 * (i + 1) + 1 + index = 2 * i + 1 + (index + 2) by omega]
      exact reaches_assigned rest hi

/-! Each construct comes to its code -/

theorem reaches_definition {formals : Value} (name : Value) (hi : body[i]? = some v) :
    Reaches doc visit v p.offset ((i + 3) :: p.path) s
      (visitDefinition visit (name :: formals :: body) p) :=
  .first (reaches_scope hv hi) fun _ _ => .done

theorem reaches_lambda {formals : Value} (hi : body[i]? = some v) :
    Reaches doc visit v p.offset ((i + 2) :: p.path) s (visitLambda visit (formals :: body) p) :=
  .first (reaches_scope hv hi) fun _ _ => .done

theorem reaches_conditional (hi : args[i]? = some v) :
    Reaches doc visit v p.offset ((i + 1) :: p.path) s (visitConditional visit args p) := by
  have hL := onward_lawful doc
  cases args with
  | nil => cases hi
  | cons first rest =>
    cases i with
    | zero =>
      cases hi
      refine .first (.here rfl rfl) fun t _ => ?_
      exact .bind (onward_items hv) fun _ _ _ _ => .done
    | succ i =>
      refine .behind (hv s first _ trivial trivial) fun t _ _ => ?_
      exact .first (reaches_item hv (p := p.fixed) hi) fun _ _ => .done

omit hv in
/-- A binding keeps the place of its form. -/
theorem bindings_get {bs : List (String × Value)} {name : String}
    (hbs : Evaluation.bindings? (.list items) = some bs)
    (hi : items[i]? = some (.list [.sym name, v])) : bs[i]? = some (name, v) := by
  have hbindings : List.Forall₂ (fun v b => Evaluation.binding? v = some b) items bs :=
    binding_of_mapM hbs
  clear hbs
  induction hbindings generalizing i with
  | nil => cases hi
  | cons hb _ ih =>
    cases i with
    | zero =>
      cases hi
      exact hb.symm
    | succ i => exact ih hi

variable (hv' : (onward doc).Visits visit')
include hv'

/-- The forms of a `let` are visited before its body. -/
theorem reaches_init {head name : String} {bindings : Value} {bs : List (String × Value)}
    (hbs : Evaluation.bindings? bindings = some bs) (hi : bs[i]? = some (name, v)) :
    Reaches doc visit v p.offset (1 :: i :: 1 :: p.path) s
      (visitLet doc visit visit' head (bindings :: body) p) := by
  simp only [visitLet, hbs]
  refine .behind onward_frame fun t frame _ => ?_
  have hinit : Reaches doc visit v p.offset (1 :: i :: 1 :: p.path) t
      (visitBindings doc visit (head = "let*") frame p 0 [] bs) := reaches_binding hv hi
  exact .first hinit fun u _ => .bind (onward_items hv') fun _ _ _ _ => .done

/-- The body of a `let` is visited after all bindings, one call further on. -/
theorem reaches_letBody {head : String} {bindings : Value} {bs : List (String × Value)}
    (hbs : Evaluation.bindings? bindings = some bs) (hi : body[i]? = some v) :
    Reaches doc visit' v p.offset ((i + 2) :: p.path) s
      (visitLet doc visit visit' head (bindings :: body) p) := by
  have hL := onward_lawful doc
  simp only [visitLet, hbs]
  refine .behind onward_frame fun t frame _ => ?_
  refine .behind (hL.visitBindings hv (fun _ _ => trivial) trivial trivial trivial) fun u _ _ => ?_
  refine .first ?_ fun _ _ => .done
  exact reaches_item hv' (p := ⟨p.offset, p.path, frame, _⟩) hi

/-- What a loop runs over, and the form for its result. -/
theorem reaches_range {name : String} {range : List Value} (hi : range[i]? = some v) :
    Reaches doc visit v p.offset ((i + 1) :: 1 :: p.path) s
      (visitLoop visit visit' (.list (.sym name :: range) :: body) p) := by
  have hdoes : ∀ t, (onward doc).Does t (do
      let env ← newFrame (some p.env) [(name, .unknown)]
      visitItems visit' { p.fixed with env := env } 2 body
      return true) := fun t =>
    .bind onward_frame fun _ _ _ _ => .bind (onward_items hv') fun _ _ _ _ => .done
  cases range with
  | nil => cases hi
  | cons first rest =>
    cases i with
    | zero =>
      cases hi
      refine .first (.here rfl rfl) fun t _ => ?_
      exact .bind (onward_items hv) fun u _ _ _ => hdoes u
    | succ i =>
      refine .behind (hv s first _ trivial trivial) fun t _ _ => ?_
      exact .first (reaches_item hv (p := p.fixed.part 1) hi) fun u _ => hdoes u

theorem reaches_loopBody {name : String} {range : List Value} (hi : body[i]? = some v) :
    Reaches doc visit' v p.offset ((i + 2) :: p.path) s
      (visitLoop visit visit' (.list (.sym name :: range) :: body) p) := by
  have hbody : ∀ t, Reaches doc visit' v p.offset ((i + 2) :: p.path) t (do
      let env ← newFrame (some p.env) [(name, .unknown)]
      visitItems visit' { p.fixed with env := env } 2 body
      return true) := fun t => by
    refine .behind onward_frame fun u env _ => ?_
    refine .first ?_ fun _ _ => .done
    exact reaches_item hv' (p := { p.fixed with env := env }) hi
  cases range with
  | nil => exact hbody s
  | cons first rest =>
    refine .behind (hv s first _ trivial trivial) fun t _ _ => ?_
    exact .behind (onward_items hv) fun u _ _ => hbody u

omit hv'

omit hv in
theorem reaches_variable {name : String} {expr : Value} {rest : List Value} {head : String} :
    Reaches doc visit expr p.offset (2 :: p.path) s
      (visitVariable doc visit head (.sym name :: expr :: rest) p) := by
  rw [visitVariable_cons]
  refine .first (.here rfl rfl) fun t _ => ?_
  exact (onward_lawful doc).defineVariable trivial (fun _ _ => trivial) trivial

end Parts

/-! The walk comes to all code -/

section Step

variable {visit : Nat → Visitor}

/-- A construct may leave its arguments to be visited as those of any call. -/
theorem visitStep_of_construct {head : String} {c : Construct}
    (hc : constructOf s.defs head = some c) :
    visitStep doc visit (.list (.sym head :: args)) p s = (do
      let done ← c.run doc visit head args p
      if done then return else visitItems (visit 1) p.fixed 1 args : Analyze Unit) s := by
  unfold constructOf at hc
  split at hc
  · cases hc
    rename_i c hnamed
    rw [visitStep_construct hnamed]
  · rename_i hnamed
    simp only [visitStep, hnamed]
    rw [Analyze.bind_apply]
    simp only [Analyze.findings, pure_bind, hc]

/-- Any other call is checked, and its arguments are visited. -/
theorem visitStep_of_call {head : String} (hc : constructOf s.defs head = none) :
    visitStep doc visit (.list (.sym head :: args)) p s = (do
      checkCall doc head (s.defs.resolve head) args p
      visitItems (visit 1) p.fixed 1 args : Analyze Unit) s := by
  unfold constructOf at hc
  split at hc
  · cases hc
  · rename_i hnamed
    simp only [visitStep, hnamed]
    rw [Analyze.bind_apply]
    simp only [Analyze.findings, pure_bind, hc]
    rfl

variable (hv : ∀ calls, (onward doc).Visits (visit calls))
include hv

theorem reaches_construct {calls : Nat} {head : String} {c : Construct}
    (hc : constructOf s.defs head = some c)
    (h : Reaches doc (visit calls) v p.offset path s (c.run doc visit head args p)) :
    Reaches doc (visit calls) v p.offset path s
      (visitStep doc visit (.list (.sym head :: args)) p) :=
  .congr (.first h fun _ _ => .ite (fun _ => .done) fun _ => onward_items (hv 1))
    (visitStep_of_construct hc)

/-- A step comes to every part that is code, with some calls in between. -/
theorem reaches_code {form : Value} {steps : Path} (h : CodePart s.defs form steps v) :
    ∃ calls,
      Reaches doc (visit calls) v p.offset (steps ++ p.path) s (visitStep doc visit form p) := by
  have hL := onward_lawful doc
  cases h with
  | item hhead hi =>
    rename_i items i
    have hstep : visitStep doc visit (.list items) p = visitItems (visit 1) p.fixed 0 items := by
      unfold visitStep
      split
      · cases ‹Value.list _ = _›
      · rename_i head args h
        cases h
        exact absurd rfl (hhead head)
      · rename_i h
        cases h
        rfl
      · rename_i h
        exact absurd rfl (h items)
    exact ⟨1, hstep ▸ reaches_item (hv 1) (p := p.fixed) hi⟩
  | argument hc hi =>
    refine ⟨1, .congr (.behind (hL.checkCall (fun _ _ => trivial) trivial) fun t _ _ => ?_)
      (visitStep_of_call hc)⟩
    exact reaches_item (hv 1) (p := p.fixed) hi
  | operand hc hi =>
    rcases hc with hc | hc
    · exact ⟨2, reaches_construct hv hc (.first (reaches_item (hv 2) hi) fun _ _ => .done)⟩
    · exact ⟨1, reaches_construct hv hc (reaches_conditional (hv 1) hi)⟩
  | clause hc hclause hj =>
    exact ⟨1, reaches_construct hv hc (.first (reaches_clause (hv 1) hclause hj) fun _ _ => .done)⟩
  | init hc hbs hi =>
    exact ⟨1, reaches_construct hv hc (reaches_init (hv 1) (hv 2) hbs (bindings_get hbs hi))⟩
  | letBody hc hbs hi => exact ⟨2, reaches_construct hv hc (reaches_letBody (hv 1) (hv 2) hbs hi)⟩
  | range hc hi => exact ⟨1, reaches_construct hv hc (reaches_range (hv 1) (hv 2) hi)⟩
  | loopBody hc hi => exact ⟨2, reaches_construct hv hc (reaches_loopBody (hv 1) (hv 2) hi)⟩
  | lambdaBody hc hi => exact ⟨3, reaches_construct hv hc (reaches_lambda (hv 3) hi)⟩
  | definitionBody hc hi =>
    rename_i name _ _ _
    exact ⟨3, reaches_construct hv hc (reaches_definition (hv 3) name hi)⟩
  | assigned hc hi =>
    exact ⟨1, reaches_construct hv hc (.first (reaches_assigned (hv 1) _ hi) fun _ _ => .done)⟩
  | defined hc hi =>
    rename_i head args
    refine ⟨1, ?_⟩
    match args with
    | [] => cases hi
    | [_] => cases hi
    | name :: expr :: rest =>
      cases hi
      have hitems : Reaches doc (visit 1) v p.offset (2 :: p.path) s
          (visitItems (visit 1) p.fixed 1 (name :: v :: rest)) :=
        reaches_item (hv 1) (p := p.fixed) (i := 1) rfl
      cases name with
      | sym name => exact reaches_construct hv hc reaches_variable
      | _ => exact hitems.congr ((visitStep_of_construct hc).trans rfl)

end Step

/-- A visit that gets through has gone through its calls and taken its step. -/
theorem visit_eq_ok {depth calls : Nat} (h : Analysis.visit doc depth calls v p s = (.ok (), t)) :
    ∃ k, visitStep doc (Analysis.visit doc k) v p s = (.ok (), t) := by
  induction depth generalizing calls with
  | zero => cases h
  | succ depth ih =>
    cases calls with
    | zero => exact ⟨depth, h⟩
    | succ calls => exact ih h

theorem ComesTo.step {depth calls : Nat}
    (h : ComesTo doc (Analysis.visit doc depth calls) v offset path s t) :
    ∃ k, ComesTo doc (visitStep doc (Analysis.visit doc k)) v offset path s t := by
  obtain ⟨p, f, g, hoffset, hpath, hf, hvisit, hg⟩ := h
  obtain ⟨k, hstep⟩ := visit_eq_ok hvisit
  exact ⟨k, p, f, g, hoffset, hpath, hf, hstep, hg⟩

/-- The visit of a form at the top of the text, before it matters how deep its parts lie. -/
def visitForm (doc : Document) (form : Value) (offset : Nat) : Analyze Unit := do
  let env ← newFrame none []
  Analysis.visit doc maxDepth 0 form ⟨offset, [], env, []⟩

/-- A form of the text is walked until it gets too deep. -/
theorem visitTop_apply (form : Value) (offset : Nat) (s : Findings) :
    visitTop doc form offset s = (visitForm doc form offset).untilTooDeep s :=
  rfl

/-- In a walk through the forms from some findings on, the form at an offset is given up since it is
nested too deep. -/
inductive GivesUp (doc : Document) : List (Value × Nat) → Findings → Nat → Prop
  | here {form : Value} {offset : Nat} {rest : List (Value × Nat)} {s : Findings}
      (h : (visitForm doc form offset s).1 = .error .tooDeep) :
        GivesUp doc ((form, offset) :: rest) s offset
  | later {form : Value} {start offset : Nat} {rest : List (Value × Nat)} {s : Findings}
      (h : GivesUp doc rest (visitTop doc form start s).2 offset) :
      GivesUp doc ((form, start) :: rest) s offset

theorem onward_form {form : Value} : (onward doc).Does s (visitForm doc form offset) :=
  .bind onward_frame fun t _ _ _ => (onward_lawful doc).visits _ _ t _ _ trivial trivial

theorem onward_top {form : Value} : (onward doc).Does s (visitTop doc form offset) :=
  fun t ht h => visitTop_apply form offset t ▸ Lawful.untilTooDeep onward_form t ht h

theorem onward_all {forms : List (Value × Nat)} : (onward doc).Does s (visitAll doc forms) := by
  induction forms generalizing s with
  | nil => exact .done
  | cons form rest ih => exact .bind onward_top fun _ _ _ _ => ih

/-- A form that is not given up is visited to its end. -/
theorem visitForm_of_top {form : Value} (h : visitTop doc form offset s = (.ok (), t))
    (hup : (visitForm doc form offset s).1 ≠ .error .tooDeep) :
    visitForm doc form offset s = (.ok (), t) := by
  rw [visitTop_apply, Analyze.untilTooDeep] at h
  split at h
  · rename_i hrun
    exact absurd (congrArg Prod.fst hrun) hup
  · exact h

/-- Unless its walk is given up, each form of the text is visited from its start. -/
theorem comesTo_top {forms : List (Value × Nat)} {form : Value}
    (h : visitAll doc forms s = (.ok (), t)) (hform : (form, offset) ∈ forms)
    (hup : ¬GivesUp doc forms s offset) :
    ComesTo doc (Analysis.visit doc maxDepth 0) form offset [] s t := by
  induction forms generalizing s with
  | nil => cases hform
  | cons first rest ih =>
    obtain ⟨_, u, htop, hrest⟩ := Analyze.bind_eq_ok h
    have hu := onward_of_goes onward_top htop
    rcases List.mem_cons.mp hform with rfl | hform
    · have hvisit := visitForm_of_top htop fun hdeep => hup (.here hdeep)
      have hreach : Reaches doc (Analysis.visit doc maxDepth 0) form offset [] s
          (visitForm doc form offset) := .behind onward_frame fun _ _ _ => .here rfl rfl
      exact (hreach () u hvisit).widen (.refl doc s) (onward_of_goes onward_all hrest)
    · refine (ih hrest hform fun hlater => hup (.later ?_)).widen hu (.refl doc t)
      rwa [htop]

/-- The walk comes to all code of forms that are not given up. -/
theorem comesTo_code {forms : List (Value × Nat)} (h : visitAll doc forms s = (.ok (), t))
    (hpos : CodePosition s.defs forms offset path v) (hup : ¬GivesUp doc forms s offset) :
    ∃ depth, ComesTo doc (visitStep doc (Analysis.visit doc depth)) v offset path s t := by
  induction hpos with
  | top hform => exact (comesTo_top h hform hup).step
  | part _ hpart ih =>
    obtain ⟨depth, p, f, g, rfl, rfl, hf, hstep, hg⟩ := ih hup
    rw [← hf.defs] at hpart
    obtain ⟨calls, hcode⟩ := reaches_code ((onward_lawful doc).visits depth) hpart
    exact ((hcode () g hstep).widen hf hg).step

/-! Literals that are checked -/

/-- The messages of a check of a string, with the characters that they are about. -/
def checkMessages (checker : Pattern.Checker) (name text : String) : List (String × Option Int) :=
  match checker text with
  | .ok complaints =>
    complaints.map fun (pos, message) => (s!"In {name}: {message} (pos {pos})", some pos)
  | .error f =>
    let shown := String.ofList (Value.quoteText text.toList)
    [(s!"In {name}: Error: {f.text}: {shown}", f.offset)]

/-- A report that was made has its place among those seen. -/
theorem report_seen {message : String} {index : Option Int}
    (h : report doc message offset path index s = (.ok (), t)) :
    ∃ pos, Call.place doc.text ⟨message, offset, path, index⟩ = .ok pos ∧
      (pos, message) ∈ t.log.seen := by
  rw [report_apply] at h
  split at h
  · cases h
    exact ⟨_, ‹_›, Report.Log.mem_seen_add.mpr (.inl rfl)⟩
  · cases h

/-- What a checker says of a literal is reported at the literal. -/
theorem check_seen {checker : Pattern.Checker} {name text message : String} {index : Option Int}
    (h : Site.check doc ⟨offset, path, .str text⟩ checker name text s = (.ok (), t))
    (hmessage : (message, index) ∈ checkMessages checker name text) :
    ∃ pos, Call.place doc.text ⟨message, offset, path, index⟩ = .ok pos ∧
      (pos, message) ∈ t.log.seen := by
  have hL := onward_lawful doc
  have hsite : ∀ message index s, Site.report doc ⟨offset, path, .str text⟩ text message index s =
      report doc message offset path index s := by
    intro message index s
    simp [Site.report, literalPath?, Conduct.report]
  unfold checkMessages at hmessage
  unfold Site.check at h
  cases hverdict : checker text with
  | ok complaints =>
    simp only [hverdict] at h hmessage
    clear hverdict
    induction complaints generalizing s with
    | nil => cases hmessage
    | cons complaint rest ih =>
      obtain ⟨_, u, hreport, hrest⟩ := Analyze.bind_eq_ok h
      rcases List.mem_cons.mp hmessage with heq | hmessage
      · cases heq
        rw [hsite] at hreport
        obtain ⟨pos, hpos, hseen⟩ := report_seen hreport
        exact ⟨pos, hpos, (onward_of_goes (hL.reportComplaints rest) hrest).seen hseen⟩
      · exact ih hrest hmessage
  | error f =>
    simp only [hverdict] at h hmessage
    cases List.mem_singleton.mp hmessage
    rw [hsite] at h
    exact report_seen h

/-- A literal is its own value. -/
theorem valueAt_literal (text : String) : ∃ t, valueAt doc (.str text) p s = (.ok (.str text), t) :=
  ⟨_, rfl⟩

/-- A call with a literal where the construct takes a regexp is checked. -/
theorem checkCall_literal {head text : String} {rest : List Value}
    (h : checkCall doc head "looking-at" (.str text :: rest) p s = (.ok (), t)) :
    ∃ u, Site.check doc ⟨p.offset, 1 :: p.path, .str text⟩ doc.regexps ("call to " ++ head) text u =
      (.ok (), t) := by
  have hpositions : s.positionsOf "looking-at" = [0] := rfl
  obtain ⟨u, hvalue⟩ : ∃ u, valueAt doc (.str text) p s = (.ok (.str text), u) :=
    valueAt_literal text
  refine ⟨u, Eq.trans ?_ h⟩
  symm
  rw [checkCall, Analyze.bind_apply]
  simp only [Analyze.findings, hpositions, checkArguments, List.getElem?_cons_zero]
  rw [Analyze.bind_apply]
  simp only [Analyze.findings, Value.symName?, Option.any_none, Bool.not_false, if_true]
  rw [Analyze.bind_apply, hvalue]
  simp only [Place.part, Place.site, Nat.zero_add, bind_pure_unit]
  rfl

theorem resolve_unaliased {defs : Definitions} {name : String} (h : defs.aliases.get? name = none) :
    defs.resolve name = name := by
  simp [Definitions.resolve, Definitions.maxLinks, Definitions.follow, h]

/-- The findings that the walk through a text begins with. -/
def opening (doc : Document) : Findings :=
  let contents := Reader.read doc.text
  let collect : Analyze Unit := do
    Scan.reportFault doc contents.fault
    collectForms doc (contents.forms.map (·.1))
  (collect .empty).2

abbrev collected (doc : Document) : Definitions :=
  (opening doc).defs

/-! Collecting definitions reports nothing -/

/-- The log stays as it is. -/
def Quiet {α : Type} (m : Analyze α) : Prop :=
  ∀ s, (m s).2.log = s.log

theorem Quiet.bind (hm : Quiet m) (hk : ∀ a, Quiet (k a)) : Quiet (m >>= k) := by
  intro s
  have h := hm s
  rw [Analyze.bind_apply]
  rcases hrun : m s with ⟨_ | a, t⟩ <;> rw [hrun] at h
  · exact h
  · exact (hk a t).trans h

theorem Quiet.done {a : α} : Quiet (pure a) :=
  fun _ => rfl

theorem collectAlias_quiet (name target : Value) : Quiet (collectAlias doc name target) := by
  have hvalue : ∀ v, Quiet (value doc v none []) := fun _ _ => rfl
  have halias : ∀ name target, Quiet (Analyze.change fun s => s.alias name target) := by
    intro name target s
    simp only [Analyze.change, Findings.alias]
    split
    · split <;> rfl
    · rfl
    · rfl
  refine (hvalue name).bind fun v => ?_
  split
  · exact (hvalue target).bind fun u => halias _ u
  · exact .done

theorem collectHere_quiet (head : String) (args : List Value) :
    Quiet (collectHere doc head args) := by
  unfold collectHere
  split
  · split
    · exact fun _ => rfl
    · exact .done
  · split
    · split
      · exact collectAlias_quiet _ _
      · exact .done
    · exact .done

mutual

theorem collectForm_quiet (form : Value) : Quiet (collectForm doc form) := by
  unfold collectForm
  split
  · split
    · exact .done
    · exact (collectHere_quiet _ _).bind fun _ => collectForms_quiet _
  · exact collectForms_quiet _
  · exact .done

theorem collectForms_quiet (forms : List Value) : Quiet (collectForms doc forms) := by
  unfold collectForms
  split
  · exact .done
  · exact (collectForm_quiet _).bind fun _ => collectForms_quiet _

end

theorem onward_fault (fault : Option Reader.Fault) :
    (onward doc).Does s (Scan.reportFault doc fault) := by
  have hL := onward_lawful doc
  unfold Scan.reportFault
  split
  · exact .done
  · exact .fail
  · exact hL.report _ _ none _ _ _
  · exact hL.report _ _ none _ _ _

/-- The walk begins with a log that is as it should be. -/
theorem analysis_eq_ok (h : Scan.analysis doc .empty = (.ok (), t)) :
    (opening doc).log.Kept doc.file doc.text ∧
      visitAll doc (Reader.read doc.text).forms (opening doc) = (.ok (), t) := by
  obtain ⟨_, f, hfault, hanalyze⟩ := Analyze.bind_eq_ok h
  obtain ⟨_, s, hcollect, hvisit⟩ := Analyze.bind_eq_ok hanalyze
  have hopening : opening doc = s := by
    simp only [opening]
    rw [Analyze.bind_apply, hfault]
    exact congrArg Prod.snd hcollect
  rw [hopening]
  refine ⟨?_, hvisit⟩
  have hquiet : (collectForms doc ((Reader.read doc.text).forms.map (·.1)) f).2.log = f.log :=
    collectForms_quiet _ f
  rw [hcollect] at hquiet
  rw [hquiet]
  exact (onward_of_goes (onward_fault _) hfault).kept Report.Log.kept_empty

/-- No call is overlooked. If a text is scanned to its end and nothing else goes by the name,
each call of `looking-at` with a literal regexp is checked wherever code stands, as long as its
form is not given up: all that the checker has to say about the regexp is reported, except where
a comment suppresses it. -/
theorem literal_checked {r : Scan.Result} {offset : Nat} {path : Path} {text message : String}
    {rest : List Value} {index : Option Int} (hscan : Scan.scan doc = .ok r)
    (halias : (collected doc).aliases.get? "looking-at" = none)
    (hpos : CodePosition (collected doc) (Reader.read doc.text).forms offset path
      (.list (.sym "looking-at" :: .str text :: rest)))
    (hup : ¬GivesUp doc (Reader.read doc.text).forms (opening doc) offset)
    (hmessage : (message, index) ∈ checkMessages doc.regexps "call to looking-at" text) :
    ∃ pos, Call.place doc.text ⟨message, offset, 1 :: path, index⟩ = .ok pos ∧
      ((∃ d ∈ r.diagnostics, d.key = (pos, message)) ∨ hidden doc.text (pos, message)) := by
  unfold Scan.scan at hscan
  split at hscan
  · cases hscan
  · rename_i t hrun
    cases hscan
    obtain ⟨hkept, hvisit⟩ := analysis_eq_ok hrun
    obtain ⟨depth, p, f, g, rfl, rfl, hf, hcall, hg⟩ := comesTo_code hvisit hpos hup
    rw [collected, ← hf.defs] at halias
    have hname := resolve_unaliased halias
    have hc : constructOf f.defs "looking-at" = none := by
      rw [constructOf, hname]
      rfl
    rw [visitStep_of_call hc, hname] at hcall
    obtain ⟨_, u, hcheck, hrest⟩ := Analyze.bind_eq_ok hcall
    obtain ⟨_, hcheck⟩ := checkCall_literal hcheck
    obtain ⟨pos, hplace, hseen⟩ := check_seen hcheck hmessage
    have hL := onward_lawful doc
    have hrest := onward_of_goes (onward_items (hL.visits depth 1)) hrest
    have hlast : (pos, message) ∈ t.log.seen := hg.seen (hrest.seen hseen)
    have hkept := (onward_of_goes onward_all hvisit).kept hkept
    refine ⟨pos, hplace, ?_⟩
    cases hhidden : hidden doc.text (pos, message) with
    | true => exact .inr rfl
    | false =>
      refine .inl ⟨Report.diagnosticAt doc.file doc.text (pos, message), ?_, rfl⟩
      exact List.mem_mergeSort.mpr (hkept.mem_diagnostics.mpr ⟨rfl, hlast, hhidden⟩)

theorem scan_of_toOption {r : Scan.Result} (h : (Scan.scan doc).toOption = some r) :
    Scan.scan doc = .ok r := by
  revert h
  cases Scan.scan doc with
  | error f => rintro ⟨⟩
  | ok r => exact fun h => congrArg Except.ok (Option.some.inj h)

/-- A text with a call in an operand, and a checker that complains about every regexp. -/
def operandText : Document :=
  ⟨"a.el", "(or (looking-at \"b\"))".toList, fun _ => .ok [(0, "bad")], fun _ => .ok [], 10⟩

def operandMessage : String :=
  "In call to looking-at: bad (pos 0)"

/-- The form of that text. -/
def operandForm : Value :=
  .list [.sym "or", .list [.sym "looking-at", .str "b"]]

def isOperandForm : List (Value × Nat) → Bool
  | [(.list [.sym "or", .list [.sym "looking-at", .str "b"]], 0)] => true
  | _ => false

theorem operandText_forms : (Reader.read operandText.text).forms = [(operandForm, 0)] := by
  have h : isOperandForm (Reader.read operandText.text).forms = true := by decide +kernel
  unfold isOperandForm at h
  split at h
  · assumption
  · cases h

theorem literal_checked_operand :
    Scan.scan operandText = .ok ⟨[⟨"a.el", 17, 1, 17, operandMessage⟩], 0, 1⟩ ∧
      (collected operandText).aliases.get? "looking-at" = none ∧
      CodePosition (collected operandText) (Reader.read operandText.text).forms 0 [1]
        (.list [.sym "looking-at", .str "b"]) ∧
      ¬GivesUp operandText (Reader.read operandText.text).forms (opening operandText) 0 ∧
      ∃ pos, Call.place operandText.text ⟨operandMessage, 0, [1, 1], some 0⟩ = .ok pos ∧
        (pos = 17 ∨ hidden operandText.text (pos, operandMessage)) := by
  have hscan : Scan.scan operandText = .ok ⟨[⟨"a.el", 17, 1, 17, operandMessage⟩], 0, 1⟩ :=
    scan_of_toOption (by decide +kernel)
  have halias : (collected operandText).aliases.get? "looking-at" = none := by decide +kernel
  have hform : (operandForm, 0) ∈ (Reader.read operandText.text).forms :=
    operandText_forms ▸ List.mem_singleton_self _
  have hc : constructOf (collected operandText) "or" = some .conditional := rfl
  have hpos : CodePosition (collected operandText) (Reader.read operandText.text).forms 0 [1]
      (.list [.sym "looking-at", .str "b"]) :=
    .part (.top hform) (.operand (i := 0) (.inr hc) rfl)
  have hmessage : (operandMessage, some 0) ∈ checkMessages operandText.regexps
      "call to looking-at" "b" :=
    List.mem_singleton_self _
  have hup : ¬GivesUp operandText (Reader.read operandText.text).forms (opening operandText) 0 := by
    rw [operandText_forms]
    rintro (hdeep | hlater)
    · have hends : (visitForm operandText operandForm 0 (opening operandText)).1.isOk = true := by
        decide +kernel
      rw [hdeep] at hends
      cases hends
    · cases hlater
  obtain ⟨pos, hplace, hshown⟩ := literal_checked hscan halias hpos hup hmessage
  refine ⟨hscan, halias, hpos, hup, pos, hplace, hshown.imp_left ?_⟩
  rintro ⟨d, hd, hkey⟩
  cases List.mem_singleton.mp hd
  exact (Prod.ext_iff.mp hkey).1.symm

/-- A call in the innermost of some `progn` forms. -/
def isNested : Nat → Value → Bool
  | 0, .list [.sym "looking-at", .str "b"] => true
  | n + 1, .list [.sym "progn", v] => isNested n v
  | _, _ => false

theorem isNested_code {defs : Definitions} {forms : List (Value × Nat)} {n : Nat}
    (h : isNested n v = true) (hpos : CodePosition defs forms offset path v) :
    ∃ path, CodePosition defs forms offset path (.list [.sym "looking-at", .str "b"]) := by
  fun_induction isNested n v generalizing path with
  | case1 => exact ⟨path, hpos⟩
  | case2 n v ih =>
    have hc : constructOf defs "progn" = some .sequence := rfl
    exact ih h (.part hpos (.operand (i := 0) (.inl hc) rfl))
  | case3 => cases h

/-- A text whose only call is nested too deep, and a checker that complains about every regexp. -/
def deepText : Document :=
  { operandText with
    text := (List.replicate 340 "(progn ".toList).flatten ++ "(looking-at \"b\")".toList ++
      List.replicate 340 ')' }

/-- Its walk is given up before it comes to the call. -/
theorem deepText_overlooked :
    Scan.scan deepText = .ok ⟨[], 0, 1⟩ ∧
      (collected deepText).aliases.get? "looking-at" = none ∧
      (operandMessage, some 0) ∈ checkMessages deepText.regexps "call to looking-at" "b" ∧
      ∃ path, CodePosition (collected deepText) (Reader.read deepText.text).forms 0 path
        (.list [.sym "looking-at", .str "b"]) := by
  have hscan : Scan.scan deepText = .ok ⟨[], 0, 1⟩ := scan_of_toOption (by decide +kernel)
  have halias : (collected deepText).aliases.get? "looking-at" = none := by decide +kernel
  have hfirst : ((Reader.read deepText.text).forms.head?.any fun (v, offset) =>
      offset = 0 ∧ isNested 340 v) = true := by decide +kernel
  refine ⟨hscan, halias, List.mem_singleton_self _, ?_⟩
  obtain ⟨⟨v, offset⟩, hhead, h⟩ := (Option.any_eq_true ..).1 hfirst
  obtain ⟨rfl, hnested⟩ := of_decide_eq_true h
  exact isNested_code hnested (.top (List.mem_of_mem_head? hhead))

end PatternLint.Analysis
