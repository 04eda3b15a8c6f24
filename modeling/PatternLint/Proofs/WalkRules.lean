import PatternLint.Proofs.CautiousWalk
import PatternLint.Proofs.Drift

/-! Rules by which walks keep to an invariant. What the single operations of a walk keep is kept by
every construct, and so by the walk as a whole, wherever it ends. -/

namespace PatternLint.Analysis

open Reader (Path)

/-- What becomes of a variable and the expression that it is assigned, behind the visit of that. -/
def assignTarget [Conduct] (doc : Document) (target expr : Value) (index : Nat) (p : Place) :
    Analyze Unit := do
  match target with
  | .sym name =>
    if ← isBound name p then assignAt doc name expr p
    else
      match (← Analyze.findings).shapeOf name with
      | some shape => checkExpr doc shape expr name (p.part (index + 1))
      | none => pure ()
      if p.path.isEmpty then defineGlobal doc name expr
  | _ => pure ()

/-- A pair of an assignment: the expression is visited before its variable changes. -/
theorem visitPairs_cons [Conduct] (doc : Document) (visit : Visitor) (p : Place) (index : Nat)
    (target expr : Value) (rest : List Value) :
    visitPairs doc visit p index (target :: expr :: rest) = (do
      visit expr (p.part (index + 1))
      assignTarget doc target expr index p
      visitPairs doc visit p (index + 2) rest) := by
  cases target with
  | sym name =>
    simp only [visitPairs, assignTarget, bind_assoc]
    congr 1; funext _; congr 1; funext bound
    cases bound with
    | true => rfl
    | false =>
      simp only [Bool.false_eq_true, if_false, bind_assoc]
      congr 1; funext s
      rcases s.shapeOf name with _ | shape <;> cases p.path.isEmpty <;> simp
  | _ => rfl

/-- What becomes of a variable that is defined, behind the visit of its expression. -/
def defineVariable [Conduct] (doc : Document) (head name : String) (expr : Value)
    (rest : List Value) (p : Place) : Analyze Bool := do
  let type ← if head = "defcustom" then customType doc none p (rest.drop 1) else pure none
  match shapeOfVariable name type (rest.head?.bind Value.strText?) with
  | some shape => do
    checkExpr doc shape expr name (p.part 2)
    Analyze.change fun s => { s with checked := s.checked.put name shape }
  | none => pure ()
  defineGlobal doc name expr
  return true

theorem visitVariable_cons [Conduct] (doc : Document) (visit : Visitor) (p : Place)
    (head name : String) (expr : Value) (rest : List Value) :
    visitVariable doc visit head (.sym name :: expr :: rest) p = (do
      visit expr (p.fixed.part 2)
      defineVariable doc head name expr rest p.fixed) :=
  rfl

/-- Each binding is read from the form at its place. -/
theorem binding_of_mapM {items : List Value} {bs : List (String × Value)}
    (h : items.mapM Evaluation.binding? = some bs) :
    List.Forall₂ (fun v b => Evaluation.binding? v = some b) items bs := by
  induction items generalizing bs with
  | nil =>
    cases h
    exact .nil
  | cons item rest ih =>
    rw [List.mapM_cons] at h
    obtain ⟨b, hb, h⟩ := Option.bind_eq_some_iff.1 h
    obtain ⟨bs, hbs, h⟩ := Option.bind_eq_some_iff.1 h
    cases h
    exact .cons hb (ih hbs)

/-- What is told of a walk, beside how the findings change. `Stands` tells of a frame and the
variables that may be assigned there, `Own` of frames that the walk itself binds variables in,
`Code` of the forms it visits, and `Result` of the values it binds. -/
structure WalkRules extends Drift Findings where
  Stands : Findings → FrameId → List String → Prop
  Own : Findings → FrameId → Prop
  Code : Value → Prop
  Result : Value → Prop

namespace WalkRules

variable (L : WalkRules)

abbrev StandsAt (w : Findings) (p : Place) : Prop :=
  L.Stands w p.env p.mutables

/-- Visits code wherever it stands. -/
def Visits (visit : Visitor) : Prop :=
  ∀ w v p, L.Code v → L.StandsAt w p → L.Does w (visit v p)

variable [Conduct]

structure Lawful (doc : Document) : Prop where
  stands_later : ∀ {s t env names}, L.Stands s env names → L.Later s t → L.Stands t env names
  stands_mono : ∀ {s env names names'}, L.Stands s env names → names' ⊆ names →
    L.Stands s env names'
  own_later : ∀ {s t env}, L.Own s env → L.Later s t → L.Own t env
  code_nil : L.Code .nil
  code_list : ∀ {items}, L.Code (.list items) → ∀ v ∈ items, L.Code v
  code_dotted : ∀ {items tail}, L.Code (.dotted items tail) → ∀ v ∈ items ++ [tail], L.Code v
  code_cdr : ∀ {name}, L.Code (.sym name) → L.Code (.list [.sym "cdr", .sym name])
  result_unknown : L.Result .unknown
  site : ∀ w site, L.Does w (Conduct.site site)
  report : ∀ w message text offset path index,
    L.Does w (Conduct.report doc message text offset path index)
  value : ∀ {w expr env mutables}, L.Code expr → L.Stands w env mutables →
    L.Goes w (fun _ v => L.Result v) (value doc expr (some env) mutables)
  structural : ∀ {w expr env mutables}, L.Code expr → L.Stands w env mutables →
    L.Does w (structure? doc expr (some env) mutables)
  newFrame : ∀ {w env mutables} (names : List String), L.Stands w env mutables →
    L.Goes w (fun t frame => L.Own t frame ∧ L.Stands t frame (names ++ mutables))
      (Analysis.newFrame (some env) (names.map (·, .unknown)))
  define : ∀ {w frame names name v}, L.Own w frame → L.Stands w frame names → L.Result v →
    L.Goes w (fun t _ => L.Stands t frame (name :: names))
      (Analyze.run fun _ => Eval.define frame name v)
  set : ∀ {w p name v}, L.StandsAt w p → L.Result v → (name ∉ p.mutables → v = .unknown) →
    L.Does w (Analyze.run fun _ => Eval.set p.env name v)
  global : ∀ {w name expr}, L.Code expr → L.Does w (defineGlobal doc name expr)
  checked : ∀ w name shape,
    L.Does w (Analyze.change fun s => { s with checked := s.checked.put name shape })

variable {L} {doc : Document} {α β : Type} {w s t : Findings} {Q : Findings → α → Prop}
  {B : Findings → β → Prop} {m : Analyze α} {k : α → Analyze β}

namespace Lawful

variable (hL : L.Lawful doc)
include hL

omit [Conduct] hL in
theorem findings : L.Does w Analyze.findings :=
  .still fun _ _ _ => ⟨rfl, fun _ _ => trivial⟩

/-! Parts that are visited -/

variable {visit visit' : Visitor} {p : Place} {items args : List Value} {index : Nat}
  {head name : String} {expr : Value} {shape : Shape}

/-- A place from which nothing is assigned stands where the place does. -/
theorem stands_fixed (h : L.StandsAt w p) : L.StandsAt w p.fixed :=
  hL.stands_mono h (List.nil_subset _)

/-- Visits of single expressions add up to those of a list of them. -/
theorem visitItems (hv : L.Visits visit) (hc : ∀ v ∈ items, L.Code v) (hp : L.StandsAt w p) :
    L.Does w (visitItems visit p index items) := by
  induction items generalizing w index with
  | nil => exact .done
  | cons item rest ih =>
    obtain ⟨hitem, hrest⟩ := List.forall_mem_cons.1 hc
    exact .bind (hv w item (p.part index) hitem hp) fun t _ hlater _ =>
      ih hrest (hL.stands_later hp hlater)

/-- The parameters of a scope are new and unknown, so the invariant has to allow for them. -/
theorem enterScope {formals : Value} (hv : L.Visits visit) (hc : ∀ v ∈ items, L.Code v)
    (hp : L.StandsAt w p) : L.Does w (enterScope visit formals index items p) := by
  refine .bind (hL.newFrame (LambdaList.names formals) hp) fun t frame _ hframe => ?_
  exact hL.visitItems hv hc (hL.stands_mono hframe.2 (List.subset_append_left _ _))

theorem visitDefinition (hv : L.Visits visit) (hc : ∀ v ∈ args, L.Code v) (hp : L.StandsAt w p) :
    L.Does w (visitDefinition visit args p) := by
  unfold Analysis.visitDefinition
  split
  · refine .bind (hL.enterScope hv (fun v h => hc v ?_) hp) fun _ _ _ _ => .done
    exact List.mem_cons_of_mem _ (List.mem_cons_of_mem _ h)
  · exact .done

theorem visitLambda (hv : L.Visits visit) (hc : ∀ v ∈ args, L.Code v) (hp : L.StandsAt w p) :
    L.Does w (visitLambda visit args p) := by
  unfold Analysis.visitLambda
  split
  · refine .bind (hL.enterScope hv (fun v h => hc v ?_) hp) fun _ _ _ _ => .done
    exact List.mem_cons_of_mem _ h
  · exact .done

/-- What variables are bound to is part of the form that binds them. -/
theorem bindings_code {v : Value} {bs : List (String × Value)} (hv : L.Code v)
    (h : Evaluation.bindings? v = some bs) : ∀ b ∈ bs, L.Code b.2 :=
  Evaluation.of_bindings? hL.code_nil (fun _ => hL.code_list) hv h

/-- Behind the bindings all their names are bound in the frame. -/
theorem visitBindings {sequential : Bool} {frame : FrameId} {names : List String}
    {bs : List (String × Value)} (hv : L.Visits visit) (hc : ∀ b ∈ bs, L.Code b.2)
    (hp : L.StandsAt w p) (hown : L.Own w frame) (hframe : L.Stands w frame (names ++ p.mutables)) :
    L.Goes w (fun t _ => L.Stands t frame (bs.map (·.1)))
      (visitBindings doc visit sequential frame p index names bs) := by
  suffices h : L.Goes w (fun t _ => L.Stands t frame (bs.map (·.1) ++ names))
      (Analysis.visitBindings doc visit sequential frame p index names bs) from
    .mono h fun t _ _ ht => hL.stands_mono ht (List.subset_append_left _ _)
  induction bs generalizing w index names with
  | nil =>
    refine .ret fun t hlater => hL.stands_later ?_ hlater
    exact hL.stands_mono hframe (List.subset_append_left _ _)
  | cons b rest ih =>
    obtain ⟨name, init⟩ := b
    obtain ⟨hinit, hrest⟩ := List.forall_mem_cons.1 hc
    have hinside : L.StandsAt w
        (if sequential then { p with env := frame, mutables := names ++ p.mutables } else p) := by
      split
      · exact hframe
      · exact hp
    refine .bind (hv w init _ hinit hinside) fun t _ ht _ => ?_
    refine .bind (hL.value hinit (hL.stands_later hinside ht)) fun u v hu hresult => ?_
    have hwu := L.trans ht hu
    refine .bind (hL.define (hL.own_later hown hwu) (hL.stands_later hframe hwu) hresult) ?_
    intro x _ hx hdefined
    have hwx := L.trans hwu hx
    refine .mono (ih hrest (hL.stands_later hp hwx) (hL.own_later hown hwx) hdefined)
      fun y _ _ hy => ?_
    refine hL.stands_mono hy fun n hn => ?_
    simp only [List.map_cons, List.cons_append, List.mem_cons, List.mem_append] at hn ⊢
    tauto

/-- The body is visited at the frame that the bindings have made, and with a visitor of its own. -/
theorem visitLet (hv : L.Visits visit) (hv' : L.Visits visit') (hc : ∀ v ∈ args, L.Code v)
    (hp : L.StandsAt w p) : L.Does w (visitLet doc visit visit' head args p) := by
  unfold Analysis.visitLet
  split
  · rename_i bindings body
    obtain ⟨hbindings, hbody⟩ := List.forall_mem_cons.1 hc
    split
    · exact .done
    · rename_i bs hbs
      refine .bind (hL.newFrame [] hp) fun t frame ht hframe => ?_
      refine .bind (hL.visitBindings hv (hL.bindings_code hbindings hbs)
        (hL.stands_later hp ht) hframe.1 hframe.2) fun u _ _ hbound => ?_
      exact .bind (hL.visitItems hv' hbody hbound) fun _ _ _ _ => .done
  · exact .done

/-- The variable of a loop is unknown in its body, where nothing is assigned. -/
theorem visitLoop (hv : L.Visits visit) (hv' : L.Visits visit') (hc : ∀ v ∈ args, L.Code v)
    (hp : L.StandsAt w p) : L.Does w (visitLoop visit visit' args p) := by
  unfold Analysis.visitLoop
  split
  · rename_i name range body
    obtain ⟨hspec, hbody⟩ := List.forall_mem_cons.1 hc
    have hrange := (List.forall_mem_cons.1 (hL.code_list hspec)).2
    have hbodies : ∀ t, L.Later w t → L.Does t (do
        let env ← Analysis.newFrame (some p.env) [(name, .unknown)]
        Analysis.visitItems visit' { p.fixed with env := env } 2 body
        return true) := by
      intro t ht
      refine .bind (hL.newFrame [name] (hL.stands_later hp ht)) fun u frame _ hframe => ?_
      refine .bind (hL.visitItems hv' hbody (hL.stands_mono hframe.2 (List.nil_subset _))) ?_
      exact fun _ _ _ _ => .done
    cases range with
    | nil => exact hbodies w (L.refl w)
    | cons first rest =>
      obtain ⟨hfirst, hrest⟩ := List.forall_mem_cons.1 hrange
      refine .bind (hv w first _ hfirst hp) fun t _ ht _ => ?_
      refine .bind (hL.visitItems hv hrest (hL.stands_later (hL.stands_fixed (p := p) hp) ht)) ?_
      exact fun u _ hu _ => hbodies u (L.trans ht hu)
  · exact .done

theorem visitConditional (hv : L.Visits visit) (hc : ∀ v ∈ args, L.Code v) (hp : L.StandsAt w p) :
    L.Does w (visitConditional visit args p) := by
  cases args with
  | nil => exact .done
  | cons first rest =>
    obtain ⟨hfirst, hrest⟩ := List.forall_mem_cons.1 hc
    refine .bind (hv w first _ hfirst hp) fun t _ ht _ => ?_
    refine .bind (hL.visitItems hv hrest ?_) fun _ _ _ _ => .done
    exact hL.stands_later (hL.stands_fixed hp) ht

/-- Clauses are visited in turn, each expression at its own place. -/
theorem visitClauses (hv : L.Visits visit) (hc : ∀ v ∈ args, L.Code v) (hp : L.StandsAt w p) :
    L.Does w (visitClauses visit p index args) := by
  induction args generalizing w index with
  | nil => exact .done
  | cons clause clauses ih =>
    obtain ⟨hclause, hclauses⟩ := List.forall_mem_cons.1 hc
    unfold Analysis.visitClauses
    split
    · rename_i test body
      obtain ⟨htest, hbody⟩ := List.forall_mem_cons.1 (hL.code_list hclause)
      have hplace : L.StandsAt w (if index = 1 then p else p.fixed) := by
        split
        · exact hp
        · exact hL.stands_fixed hp
      refine .bind (hv w test _ htest hplace) fun t _ ht _ => ?_
      refine .bind (hL.visitItems hv hbody ?_) fun u _ hu _ => ?_
      · exact hL.stands_later (hL.stands_fixed (p := p) hp) ht
      · exact ih hclauses (hL.stands_later hp (L.trans ht hu))
    · exact ih hclauses hp

/-! Strings that are checked -/

variable {site : Site} {text message : String} {checker : Pattern.Checker}

theorem take : L.Does w site.take :=
  .bind (hL.site w site) fun _ _ _ _ => .done

/-- A report at a site goes into the log and changes nothing else. -/
theorem siteReport (index : Option Int) : L.Does w (site.report doc text message index) := by
  unfold Site.report
  split
  · exact hL.report _ _ _ _ _ _
  · exact hL.report _ _ _ _ _ _

theorem reportComplaints (complaints : List Pattern.Complaint) :
    L.Does w (reportComplaints doc site text name complaints) := by
  induction complaints generalizing w with
  | nil => exact .done
  | cons complaint rest ih => exact .bind (hL.siteReport _) fun _ _ _ _ => ih

/-- A site is checked once; what the checker says is reported complaint by complaint. -/
theorem siteCheck : L.Does w (site.check doc checker name text) := by
  unfold Site.check
  split
  · exact hL.reportComplaints _
  · exact hL.siteReport _

theorem checkRegexps (texts : List String) : L.Does w (site.checkRegexps doc name texts) := by
  induction texts generalizing w with
  | nil => exact .done
  | cons text rest ih => exact .bind hL.siteCheck fun _ _ _ _ => ih

theorem reportAll {offset : Nat} {path : Path} (messages : List String) :
    L.Does w (reportAll doc offset path messages) := by
  induction messages generalizing w with
  | nil => exact .done
  | cons message rest ih => exact .bind (hL.report _ _ _ _ _ _) fun _ _ _ _ => ih

theorem reportSplices {arg : Value} : L.Does w (reportSplices doc arg site) :=
  .bind findings fun _ _ _ _ => hL.reportAll _

theorem checkPieces : L.Does w (checkPieces doc site index args) := by
  induction args generalizing w index with
  | nil => exact .done
  | cons piece pieces ih =>
    cases pieces with
    | nil => exact .done
    | cons next rest =>
      unfold Analysis.checkPieces
      refine .ite (fun _ => ?_) fun _ => ?_
      · exact .bind hL.take fun _ _ _ _ => .bind hL.reportSplices fun _ _ _ _ => ih
      · exact ih

/-- The directives of a format and the arguments that they take. -/
theorem checkConversions {fmt : List Char} (found : List Primitive.Conversion) :
    L.Does w (checkConversions doc fmt args site found) := by
  induction found generalizing w with
  | nil => exact .done
  | cons c rest ih =>
    unfold Analysis.checkConversions
    split
    · dsimp only
      split
      · refine .ite (fun _ => ?_) fun _ => ?_
        · exact .bind hL.take fun _ _ _ _ => .bind hL.reportSplices fun _ _ _ _ => ih
        · exact ih
      · exact ih
    · exact ih

theorem checkFormat : L.Does w (checkFormat doc args site) := by
  unfold Analysis.checkFormat
  split
  · split
    · exact hL.checkConversions _
    · exact .done
    · exact .fail
  · exact .done

/-! Values that are checked -/

theorem valueAt (hc : L.Code expr) (hp : L.StandsAt w p) :
    L.Goes w (fun _ v => L.Result v) (valueAt doc expr p) :=
  hL.value hc hp

/-- An expression is evaluated at its place, and the literals that its value comes from are
checked. -/
theorem checkExpr (hc : L.Code expr) (hp : L.StandsAt w p) :
    L.Does w (checkExpr doc shape expr name p) := by
  unfold Analysis.checkExpr
  have hchecks : ∀ t v, L.Does t (do
      (← (p.site expr).take).checkRegexps doc name (shape.patterns v)) :=
    fun t v => .bind hL.take fun _ _ _ _ => hL.checkRegexps _
  refine .ite (fun _ => ?_) fun _ => ?_
  · exact .bind (hL.valueAt hc hp) fun t v _ _ => hchecks t v
  · exact .bind (hL.structural hc hp) fun t v _ _ => hchecks t v

theorem checkElement (hc : L.Code expr) (hp : L.StandsAt w p) :
    L.Does w (checkElement doc shape expr name p) :=
  .bind (hL.structural hc hp) fun _ _ _ _ => .bind hL.take fun _ _ _ _ => hL.checkRegexps _

omit [Conduct] hL in
theorem shapeOfNamed {v : Value} : L.Does w (shapeOfNamed v) := by
  unfold Analysis.shapeOfNamed
  split
  · exact .bind findings fun _ _ _ _ => .done
  · exact .done

/-- An argument that comes from a generator is reported with the name of the call. -/
theorem checkOrigin {arg : Value} : L.Does w (checkOrigin doc head arg p) :=
  .bind findings fun _ _ _ _ => hL.reportAll _

theorem checkArguments (hc : ∀ v ∈ args, L.Code v) (hp : L.StandsAt w p) (positions : List Nat) :
    L.Does w (checkArguments doc head args p positions) := by
  induction positions generalizing w with
  | nil => exact .done
  | cons position rest ih =>
    unfold Analysis.checkArguments
    split
    · rename_i arg harg
      refine .bind findings fun t s ht _ => .ite (fun _ => ?_) fun _ => ?_
      · have harg := hc arg (List.mem_of_getElem? harg)
        refine .bind (hL.valueAt harg (hL.stands_later hp ht)) fun u v hu _ => ?_
        have hp := hL.stands_later hp (L.trans ht hu)
        split
        · refine .bind hL.take fun x _ hx _ => .bind hL.siteCheck fun y _ hy _ => ?_
          exact ih (hL.stands_later hp (L.trans hx hy))
        · exact ih hp
      · exact ih (hL.stands_later hp ht)
    · exact ih hp

/-- The arguments that patterns are expected at, by the name of the function. -/
theorem checkCall (hc : ∀ v ∈ args, L.Code v) (hp : L.StandsAt w p) :
    L.Does w (checkCall doc head name args p) :=
  .bind findings fun _ _ ht _ => hL.checkArguments hc (hL.stands_later hp ht) _

theorem checkArgument (hc : ∀ v ∈ args, L.Code v) (hp : L.StandsAt w p) :
    L.Does w (checkArgument doc shape head args index p) := by
  unfold Analysis.checkArgument
  split
  · rename_i arg harg
    exact hL.checkExpr (hc arg (List.mem_of_getElem? harg)) hp
  · exact .done

theorem visitGenericMode (hc : ∀ v ∈ args, L.Code v) (hp : L.StandsAt w p) :
    L.Does w (visitGenericMode doc head args p) := by
  refine .bind (hL.checkArgument hc hp) fun t _ ht _ => ?_
  exact .bind (hL.checkArgument hc (hL.stands_later hp ht)) fun _ _ _ _ => .done

/-- Each of the rules of a mode is an argument of the call. -/
theorem checkRules (hc : ∀ v ∈ args, L.Code v) (hp : L.StandsAt w p) :
    L.Does w (checkRules doc head p index args) := by
  induction args generalizing w index with
  | nil => exact .done
  | cons rule rules ih =>
    obtain ⟨hrule, hrules⟩ := List.forall_mem_cons.1 hc
    unfold Analysis.checkRules
    split
    · have hregexp := (List.forall_mem_cons.1 (hL.code_list hrule)).1
      refine .bind (hL.checkExpr hregexp hp) fun t _ ht _ => ?_
      exact ih hrules (hL.stands_later hp ht)
    · exact ih hrules hp

mutual

/-- Forms of a structured regexp are looked through for literal ones; the induction is on the
form. -/
theorem checkClauses {w : Findings} {p : Place} (form : Value) (hc : L.Code form)
    (hp : L.StandsAt w p) : L.Does w (checkClauses doc name p form) := by
  unfold Analysis.checkClauses
  split
  · exact hL.checkExpr (hL.code_list hc _ (by simp)) hp
  · exact hL.checkExpr (hL.code_list hc _ (by simp)) hp
  · rename_i args _ _
    refine .ite (fun _ => .done) fun _ => ?_
    exact checkClausesFrom args (List.forall_mem_cons.1 (hL.code_list hc)).2 hp
  · rename_i args _ _ _
    exact checkClausesFrom args (List.forall_mem_cons.1 (hL.code_list hc)).2 hp
  · exact .done

theorem checkClausesFrom {w : Findings} {p : Place} {index : Nat} (forms : List Value)
    (hc : ∀ v ∈ forms, L.Code v) (hp : L.StandsAt w p) :
    L.Does w (checkClausesFrom doc name p index forms) := by
  unfold Analysis.checkClausesFrom
  split
  · exact .done
  · rename_i form rest
    refine .bind (checkClauses form (hc form (by simp)) hp) fun t _ ht _ => ?_
    exact checkClausesFrom rest (List.forall_mem_cons.1 hc).2 (hL.stands_later hp ht)

end

theorem visitRx (hc : ∀ v ∈ args, L.Code v) (hp : L.StandsAt w p) :
    L.Does w (visitRx doc args p) :=
  .bind (hL.checkClausesFrom args hc hp) fun _ _ _ _ => .done

theorem visitRxToString (hc : ∀ v ∈ args, L.Code v) (hp : L.StandsAt w p) :
    L.Does w (visitRxToString doc args p) := by
  unfold Analysis.visitRxToString
  split
  · rename_i form _
    refine .ite (fun _ => ?_) fun _ => .done
    have hquoted := hL.code_list (List.forall_mem_cons.1 hc).1
    exact .bind (hL.checkClauses form (hquoted form (by simp)) hp) fun _ _ _ _ => .done
  · exact .done

theorem visitSkip {check : Site → String → String → Analyze Unit}
    (hcheck : ∀ t site name text, L.Does t (check site name text)) (hc : ∀ v ∈ args, L.Code v)
    (hp : L.StandsAt w p) : L.Does w (visitSkip doc check head args p) := by
  unfold Analysis.visitSkip
  split
  · rename_i arg _
    refine .bind (hL.valueAt (hc arg (by simp)) hp) fun t v _ _ => ?_
    split
    · refine .bind hL.take fun u _ _ _ => .bind (hcheck u _ _ _) fun _ _ _ _ => ?_
      exact .bind hL.checkOrigin fun _ _ _ _ => .done
    · exact .bind hL.checkOrigin fun _ _ _ _ => .done
  · exact .done

/-- The element is checked as one of a list, the call as any other. -/
theorem visitAddToList (hc : ∀ v ∈ args, L.Code v) (hp : L.StandsAt w p) :
    L.Does w (visitAddToList doc args p) := by
  unfold Analysis.visitAddToList
  split
  · rename_i target element _
    refine .bind (hL.valueAt (hc target (by simp)) hp) fun t _ ht _ => ?_
    refine .bind shapeOfNamed fun u found hu _ => ?_
    split
    · have hp := hL.stands_later hp (L.trans ht hu)
      exact .bind (hL.checkElement (hc element (by simp)) hp) fun _ _ _ _ => .done
    · exact .done
  · exact .done

/-- The expression that names the variable is part of the form. -/
theorem setTarget_code {v : Value} (hv : L.Code v) : L.Code (setTarget v) := by
  unfold setTarget
  split
  · split
    · exact hL.code_list hv _ (by simp)
    · exact hv
  · exact hv

theorem visitSet (hc : ∀ v ∈ args, L.Code v) (hp : L.StandsAt w p) :
    L.Does w (visitSet doc args p) := by
  unfold Analysis.visitSet
  split
  · rename_i target expr
    refine .bind (hL.valueAt (hL.setTarget_code (hc target (by simp))) hp) fun t _ ht _ => ?_
    refine .bind shapeOfNamed fun u found hu _ => ?_
    split
    · have hp := hL.stands_later hp (L.trans ht hu)
      exact .bind (hL.checkExpr (hc expr (by simp)) hp) fun _ _ _ _ => .done
    · exact .done
  · exact .done

/-! Variables -/

/-- The value of the expression, or an unknown one, is what the variable has from here on. -/
theorem assignAt (hc : L.Code expr) (hp : L.StandsAt w p) :
    L.Does w (assignAt doc name expr p) := by
  unfold Analysis.assignAt
  have hset : ∀ t v, L.Later w t → L.Result v → (name ∉ p.mutables → v = .unknown) →
      L.Does t (do let _ ← Analyze.run fun _ => Eval.set p.env name v) := fun t v ht hv hfixed =>
    .bind (hL.set (hL.stands_later hp ht) hv hfixed) fun _ _ _ _ => .done
  refine .ite (fun hm => ?_) fun hm => ?_
  · exact .bind (hL.valueAt hc hp) fun t v ht hv => hset t v ht hv fun h => absurd hm h
  · exact hset w .unknown (L.refl w) hL.result_unknown fun _ => rfl

omit [Conduct] hL in
theorem isBound : L.Does w (isBound name p) :=
  .bind findings fun _ _ _ _ => .done

/-- Assigned is a variable of a frame, or else a global one at the top of the text. -/
theorem assignTarget (target : Value) (hc : L.Code expr) (hp : L.StandsAt w p) :
    L.Does w (assignTarget doc target expr index p) := by
  cases target with
  | sym name =>
    refine .bind isBound fun t bound ht _ => ?_
    have hpt := hL.stands_later hp ht
    refine .ite (fun _ => hL.assignAt hc hpt) fun _ => ?_
    refine .bind findings fun u s hu _ => ?_
    have hglobal : ∀ x, L.Does x (if p.path.isEmpty then defineGlobal doc name expr else pure ()) :=
      fun x =>
      .ite (fun _ => hL.global hc) fun _ => .done
    cases s.shapeOf name with
    | some shape =>
      exact .bind (hL.checkExpr hc (hL.stands_later hpt hu)) fun x _ _ _ => hglobal x
    | none => exact hglobal u
  | _ => exact .done

/-- Assignments are made in turn, and each is seen by those behind it. -/
theorem visitPairs {w : Findings} {index : Nat} (args : List Value) (hv : L.Visits visit)
    (hc : ∀ v ∈ args, L.Code v) (hp : L.StandsAt w p) :
    L.Does w (visitPairs doc visit p index args) := by
  match args with
  | [] => exact .done
  | [_] => exact .done
  | target :: expr :: rest =>
    obtain ⟨_, hexpr, hrest⟩ : L.Code target ∧ L.Code expr ∧ ∀ v ∈ rest, L.Code v := by
      simpa using hc
    rw [visitPairs_cons]
    refine .bind (hv w expr _ hexpr hp) fun t _ ht _ => ?_
    have hpt := hL.stands_later hp ht
    refine .bind (hL.assignTarget target hexpr hpt) fun u _ hu _ => ?_
    exact visitPairs rest hv hrest (hL.stands_later hpt hu)

theorem visitPush (hv : L.Visits visit) (hc : L.Code (.list (.sym head :: args)))
    (hp : L.StandsAt w p) : L.Does w (visitPush doc visit head args p) := by
  have hargs := (List.forall_mem_cons.1 (hL.code_list hc)).2
  unfold Analysis.visitPush
  split
  · rename_i element name
    have helement := hargs element (by simp)
    refine .bind (hv w element _ helement hp) fun t _ ht _ => ?_
    refine .bind isBound fun u _ hu _ => ?_
    have hpu := hL.stands_later hp (L.trans ht hu)
    refine .ite (fun _ => ?_) fun _ => ?_
    · exact .bind (hL.assignAt hc hpu) fun _ _ _ _ => .done
    · refine .bind findings fun x s hx _ => ?_
      split
      · refine .bind (hL.checkElement helement (hL.stands_later hpu hx)) ?_
        exact fun _ _ _ _ => .done
      · exact .done
  · rename_i element target _
    refine .bind (hv w element _ (hargs element (by simp)) hp) fun t _ ht _ => ?_
    refine .bind (hv t target _ (hargs target (by simp)) ?_) fun _ _ _ _ => .done
    exact hL.stands_later (hL.stands_fixed (p := p) hp) ht
  · exact .done

theorem visitPop (hc : ∀ v ∈ args, L.Code v) (hp : L.StandsAt w p) :
    L.Does w (visitPop doc args p) := by
  unfold Analysis.visitPop
  split
  · rename_i name
    refine .bind isBound fun t _ ht _ => ?_
    refine .ite (fun _ => ?_) fun _ => .done
    refine .bind (hL.assignAt (hL.code_cdr (hc _ (by simp))) (hL.stands_later hp ht)) ?_
    exact fun _ _ _ _ => .done
  · exact .done

/-- The type of an option is looked for among its keywords. -/
theorem customType {w : Findings} {found : Option Value} (args : List Value)
    (hc : ∀ v ∈ args, L.Code v) (hp : L.StandsAt w p) :
    L.Does w (customType doc found p args) := by
  match args with
  | [] => exact .done
  | [key] =>
    cases key <;> exact .done
  | key :: expr :: rest =>
    obtain ⟨_, hexpr, hrest⟩ : L.Code key ∧ L.Code expr ∧ ∀ v ∈ rest, L.Code v := by
      simpa using hc
    cases key with
    | sym key =>
      unfold Analysis.customType
      refine .ite (fun _ => ?_) fun _ => customType rest hrest hp
      refine .bind (hL.valueAt hexpr hp) fun t v ht _ => ?_
      exact customType rest hrest (hL.stands_later hp ht)
    | _ => exact customType rest hrest hp

/-- What a definition says of its variable, by name, by type and by documentation. -/
theorem defineVariable (hc : L.Code expr) (hargs : ∀ v ∈ args, L.Code v) (hp : L.StandsAt w p) :
    L.Does w (defineVariable doc head name expr args p) := by
  have hdefine : ∀ t type, L.Later w t → L.Does t (do
      match shapeOfVariable name type (args.head?.bind Value.strText?) with
      | some shape => do
        Analysis.checkExpr doc shape expr name (p.part 2)
        Analyze.change fun s => { s with checked := s.checked.put name shape }
      | none => pure ()
      defineGlobal doc name expr
      return true) := by
    intro t type ht
    have hglobal : ∀ u, L.Does u (do
        defineGlobal doc name expr
        return true) := fun u => .bind (hL.global hc) fun _ _ _ _ => .done
    split
    · refine .bind (hL.checkExpr hc (hL.stands_later hp ht)) fun u _ _ _ => ?_
      exact .bind (hL.checked u name _) fun x _ _ _ => hglobal x
    · exact hglobal t
  refine .ite (fun _ => ?_) fun _ => hdefine w none (L.refl w)
  refine .bind (hL.customType _ (fun v h => hargs v (List.mem_of_mem_drop h)) hp) ?_
  exact fun t type ht _ => hdefine t type ht

theorem visitVariable (hv : L.Visits visit) (hc : ∀ v ∈ args, L.Code v) (hp : L.StandsAt w p) :
    L.Does w (visitVariable doc visit head args p) := by
  unfold Analysis.visitVariable
  split
  · exact .done
  · rename_i name expr rest
    obtain ⟨_, hexpr, hrest⟩ : L.Code (.sym name) ∧ L.Code expr ∧ ∀ v ∈ rest, L.Code v := by
      simpa using hc
    have hp := hL.stands_fixed hp
    refine .bind (hv w expr _ hexpr hp) fun t _ ht _ => ?_
    exact hL.defineVariable hexpr hrest (hL.stands_later hp ht)
  · exact .done

/-! The walk -/

section Walk

variable {visit : Nat → Visitor}

/-- Every construct keeps what the operations of a walk keep. -/
theorem run {c : Construct} (hv : ∀ calls, L.Visits (visit calls))
    (hc : L.Code (.list (.sym head :: args))) (hp : L.StandsAt w p) :
    L.Does w (c.run doc visit head args p) := by
  have hargs := (List.forall_mem_cons.1 (hL.code_list hc)).2
  cases c with
  | quoted => exact .done
  | definition => exact hL.visitDefinition (hv 3) hargs hp
  | lambda => exact hL.visitLambda (hv 3) hargs hp
  | letForm => exact hL.visitLet (hv 1) (hv 2) hargs hp
  | loop => exact hL.visitLoop (hv 1) (hv 2) hargs hp
  | assignment => exact .bind (hL.visitPairs args (hv 1) hargs hp) fun _ _ _ _ => .done
  | push => exact hL.visitPush (hv 1) hc hp
  | pop => exact hL.visitPop hargs hp
  | addToList => exact hL.visitAddToList hargs hp
  | set => exact hL.visitSet hargs hp
  | conditional => exact hL.visitConditional (hv 1) hargs hp
  | cond => exact .bind (hL.visitClauses (hv 1) hargs hp) fun _ _ _ _ => .done
  | sequence => exact .bind (hL.visitItems (hv 2) hargs hp) fun _ _ _ _ => .done
  | definitionOfVariable => exact hL.visitVariable (hv 1) hargs hp
  | skipChars => exact hL.visitSkip (fun _ _ _ _ => hL.siteCheck) hargs hp
  | skipSyntax => exact hL.visitSkip (fun _ _ _ _ => hL.reportComplaints _) hargs hp
  | concat =>
    exact .bind hL.take fun _ _ _ _ => .bind hL.checkPieces fun _ _ _ _ => .done
  | format =>
    exact .bind hL.take fun _ _ _ _ => .bind hL.checkFormat fun _ _ _ _ => .done
  | fontLock => exact .bind (hL.checkArgument hargs hp) fun _ _ _ _ => .done
  | genericMode => exact hL.visitGenericMode hargs hp
  | syntaxRules => exact .bind (hL.checkRules hargs hp) fun _ _ _ _ => .done
  | rx => exact hL.visitRx hargs hp
  | rxToString => exact hL.visitRxToString hargs hp

/-- A call of what a name stands for, and the arguments unless they are done with it. -/
theorem visitCall {head : String} (hv : ∀ calls, L.Visits (visit calls))
    (hc : L.Code (.list (.sym head :: args))) (hp : L.StandsAt w p) (name : String) : L.Does w (do
      let done ← match Construct.named? name with
        | some c => c.run doc visit head args p
        | none => do
          Analysis.checkCall doc head name args p
          pure false
      if done then return else Analysis.visitItems (visit 1) p.fixed 1 args) := by
  have hargs := (List.forall_mem_cons.1 (hL.code_list hc)).2
  have hrest : ∀ t (done : Bool), L.Later w t → L.Does t
      (if done then return else Analysis.visitItems (visit 1) p.fixed 1 args) := fun t done ht =>
    .ite (fun _ => .done) fun _ =>
      hL.visitItems (hv 1) hargs (hL.stands_later (hL.stands_fixed (p := p) hp) ht)
  cases Construct.named? name with
  | some c => exact .bind (hL.run hv hc hp) fun t done ht _ => hrest t done ht
  | none => exact .bind (hL.checkCall hargs hp) fun t _ ht _ => hrest t false ht

/-- One expression, if its parts may be visited with any number of calls under way. -/
theorem visitStep (hv : ∀ calls, L.Visits (visit calls)) : L.Visits (visitStep doc visit) := by
  intro w form p hc hp
  unfold Analysis.visitStep
  split
  · exact hL.visitItems (hv 1) (hL.code_dotted hc) (hL.stands_fixed hp)
  · rename_i head args
    cases Construct.named? head with
    | some c => exact hL.visitCall hv hc hp head
    | none => exact .bind findings fun t s ht _ => hL.visitCall hv hc (hL.stands_later hp ht) _
  · exact hL.visitItems (hv 1) (hL.code_list hc) (hL.stands_fixed hp)
  · exact .done

end Walk

/-- Wherever it ends, and be it because something lies too deep. -/
theorem visits (depth calls : Nat) : L.Visits (Analysis.visit doc depth calls) := by
  induction depth generalizing calls with
  | zero => exact fun _ _ _ _ _ => .fail
  | succ depth ih =>
    cases calls with
    | zero => exact hL.visitStep ih
    | succ calls => exact ih calls

omit [Conduct] hL in
/-- What was kept up to the place where a walk gave up is kept by the walk. -/
theorem untilTooDeep {m : Analyze Unit} (h : L.Does w m) : L.Does w m.untilTooDeep := by
  intro s hw hs
  obtain ⟨hlater, hfine, -⟩ := h s hw hs
  have hstate : (m.untilTooDeep s).2 = (m s).2 := by
    unfold Analyze.untilTooDeep
    split
    · rename_i hm
      rw [hm]
    · rfl
  rw [hstate]
  exact ⟨hlater, hfine, fun _ _ => trivial⟩

end Lawful

end WalkRules

end PatternLint.Analysis
