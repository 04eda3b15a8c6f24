import PatternLint.Proofs.StrictConduct

/-! The walk through a form under the strict conduct goes as usual: every construct goes on into a
part of the form, and takes along the path that leads there. -/

namespace PatternLint.Analysis

open Reader (Path)

/-- Two visitors that do the same with `nil`, wherever it stands, and with all parts of the form. -/
def Coincide (form : Value) (start : Nat) (visit' visit : Visitor) : Prop :=
  ∀ v p, v = .nil ∨ Leads form start p.offset p.path v → visit' v p = visit v p

/-- The first values of bindings stand in the list of bindings, but for those that are left out. -/
def BindingsFrom (form : Value) (start : Nat) (p : Place) (index : Nat)
    (bs : List (String × Value)) : Prop :=
  ∀ k b, bs[k]? = some b →
    b.2 = .nil ∨ Leads form start p.offset (1 :: (index + k) :: 1 :: p.path) b.2

variable {doc : Document} {form : Value} {start index : Nat} {refusal : Fault} {p : Place}
  {visit' visit body' body : Visitor} {items args : List Value} {expr : Value} {head name : String}
  {shape : Shape}

/-! Parts that are visited -/

/-- Each item is at the place that its index leads to. -/
theorem visitItems_strict (p : Place) (hv : Coincide form start visit' visit)
    (h : LeadsFrom form start p.offset p.path index items) :
    visitItems visit' p index items = visitItems visit p index items := by
  induction items generalizing index with
  | nil => rfl
  | cons item rest ih =>
    rw [visitItems, visitItems, hv item (p.part index) (.inr h.cons.1), ih h.tail]

theorem enterScope_strict {formals : Value} {body : List Value}
    (hv : Coincide form start visit' visit)
    (h : LeadsFrom form start p.offset p.path index body) :
    enterScope visit' formals index body p = enterScope visit formals index body p :=
  bind_congr fun env => visitItems_strict { p with env := env, mutables := _ } hv h

theorem visitDefinition_strict (hv : Coincide form start visit' visit)
    (h : LeadsFrom form start p.offset p.path 1 args) :
    visitDefinition visit' args p = visitDefinition visit args p := by
  unfold visitDefinition
  split
  · rw [enterScope_strict hv h.tail.tail]
  · rfl

theorem visitLambda_strict (hv : Coincide form start visit' visit)
    (h : LeadsFrom form start p.offset p.path 1 args) :
    visitLambda visit' args p = visitLambda visit args p := by
  unfold visitLambda
  split
  · rw [enterScope_strict hv h.tail]
  · rfl

/-- The form of a binding is its second part, or there is none. -/
theorem binding_child {v : Value} {b : String × Value} (h : Evaluation.binding? v = some b) :
    b.2 = .nil ∨ v.child? 1 = some b.2 := by
  unfold Evaluation.binding? at h
  split at h <;> cases h
  · exact .inl rfl
  · exact .inl rfl
  · exact .inr rfl

theorem BindingsFrom.cons {b : String × Value} {bs : List (String × Value)}
    (h : b.2 = .nil ∨ Leads form start p.offset (1 :: index :: 1 :: p.path) b.2)
    (hs : BindingsFrom form start p (index + 1) bs) :
    BindingsFrom form start p index (b :: bs) := by
  rintro (_ | k) c hk
  · cases hk
    exact h
  · rw [Nat.add_comm k, ← Nat.add_assoc]
    exact hs k c hk

theorem BindingsFrom.tail {b : String × Value} {bs : List (String × Value)}
    (h : BindingsFrom form start p index (b :: bs)) : BindingsFrom form start p (index + 1) bs := by
  intro k c hk
  rw [Nat.add_assoc, Nat.add_comm 1]
  exact h (k + 1) c hk

/-- Bindings that are read from a list keep the indices of their forms. -/
theorem bindingsFrom_mapM {bs : List (String × Value)}
    (h : LeadsFrom form start p.offset (1 :: p.path) index items)
    (hbs : items.mapM Evaluation.binding? = some bs) : BindingsFrom form start p index bs := by
  induction items generalizing index bs with
  | nil =>
    cases hbs
    exact nofun
  | cons item items ih =>
    rw [List.mapM_cons] at hbs
    obtain ⟨b, hb, hbs⟩ := Option.bind_eq_some_iff.1 hbs
    obtain ⟨more, hmore, hbs⟩ := Option.bind_eq_some_iff.1 hbs
    cases hbs
    exact .cons ((binding_child hb).imp id h.cons.1.child) (ih h.tail hmore)

theorem Leads.bindings {v : Value} {bs : List (String × Value)}
    (h : Leads form start p.offset (1 :: p.path) v) (hbs : Evaluation.bindings? v = some bs) :
    BindingsFrom form start p 0 bs := by
  unfold Evaluation.bindings? at hbs
  split at hbs
  · exact bindingsFrom_mapM h.members hbs
  · split at hbs
    · cases hbs
      rintro i b hb
      cases hb
    · cases hbs

/-- The form of a binding is two steps into the list of them. -/
theorem visitBindings_strict {sequential : Bool} {frame : FrameId} {names : List String}
    {bs : List (String × Value)} (hv : Coincide form start visit' visit)
    (h : BindingsFrom form start p index bs) :
    visitBindings doc visit' sequential frame p index names bs =
      visitBindings doc visit sequential frame p index names bs := by
  induction bs generalizing index names with
  | nil => rfl
  | cons b rest ih =>
    obtain ⟨name, init⟩ := b
    simp only [visitBindings, ih h.tail]
    cases sequential with
    | true => rw [hv init _ (h 0 _ rfl)]
    | false => rw [hv init _ (h 0 _ rfl)]

theorem visitLet_strict (hv : Coincide form start visit' visit)
    (hb : Coincide form start body' body) (h : LeadsFrom form start p.offset p.path 1 args) :
    visitLet doc visit' body' head args p = visitLet doc visit body head args p := by
  unfold visitLet
  split
  · split
    · rfl
    · rename_i hbs
      refine bind_congr fun frame => ?_
      rw [visitBindings_strict hv (h.cons.1.bindings hbs),
        visitItems_strict { p with env := frame, mutables := _ } hb h.tail]
  · rfl

/-- What a loop runs over is inside of its head, the body behind it. -/
theorem visitLoop_strict (hv : Coincide form start visit' visit)
    (hb : Coincide form start body' body) (h : LeadsFrom form start p.offset p.path 1 args) :
    visitLoop visit' body' args p = visitLoop visit body args p := by
  unfold visitLoop
  split
  · rename_i range forms
    have hrange := h.cons.1.args
    have hbody : ∀ env, visitItems body' { p.fixed with env := env } 2 forms =
        visitItems body { p.fixed with env := env } 2 forms :=
      fun env => visitItems_strict { p.fixed with env := env } hb h.tail
    cases range with
    | nil => simp only [hbody]
    | cons first rest =>
      have hfirst := hv first ((p.part 1).part 1) (.inr hrange.cons.1)
      have hrest := visitItems_strict (p.fixed.part 1) hv hrange.tail
      simp only [hbody, hfirst, hrest]
  · rfl

theorem visitConditional_strict (hv : Coincide form start visit' visit)
    (h : LeadsFrom form start p.offset p.path 1 args) :
    visitConditional visit' args p = visitConditional visit args p := by
  unfold visitConditional
  split
  · rfl
  · rw [hv _ (p.part 1) (.inr h.cons.1), visitItems_strict p.fixed hv h.tail]

/-- Clauses and the expressions in them have an index each. -/
theorem visitClauses_strict (hv : Coincide form start visit' visit)
    (h : LeadsFrom form start p.offset p.path index items) :
    visitClauses visit' p index items = visitClauses visit p index items := by
  induction items generalizing index with
  | nil => rfl
  | cons clause rest ih =>
    unfold visitClauses
    rw [ih h.tail]
    split
    · rename_i test body
      have hclause := h.cons.1.members
      have htest : visit' test (((if index = 1 then p else p.fixed).part index).part 0) =
          visit test (((if index = 1 then p else p.fixed).part index).part 0) := by
        split <;> exact hv test _ (.inr hclause.cons.1)
      rw [visitItems_strict (p.fixed.part index) hv hclause.tail, htest]
    · rfl

/-! Parts that are checked -/

/-- A site is at the expression that is checked. -/
theorem checkExpr_strict (p : Place) (h : Leads form start p.offset p.path expr) :
    @checkExpr (.strict form start refusal) doc shape expr name p =
      checkExpr doc shape expr name p := by
  have hsite : (p.site expr).InPlace form start := h
  simp only [checkExpr, take_strict hsite, take_plain, pure_bind, Site.checkRegexps_strict hsite]

theorem checkElement_strict (p : Place) (h : Leads form start p.offset p.path expr) :
    @checkElement (.strict form start refusal) doc shape expr name p =
      checkElement doc shape expr name p := by
  have hsite : (p.site expr).InPlace form start := h
  simp only [checkElement, take_strict hsite, take_plain, pure_bind, Site.checkRegexps_strict hsite]

theorem checkOrigin_strict {arg : Value} (h : Leads form start p.offset (1 :: p.path) arg) :
    @checkOrigin (.strict form start refusal) doc head arg p = checkOrigin doc head arg p :=
  bind_congr fun _ => reportAll_strict h _

/-- An argument stands one behind its position, as the head comes first. -/
theorem checkArguments_strict (h : LeadsFrom form start p.offset p.path 1 args)
    (positions : List Nat) :
    @checkArguments (.strict form start refusal) doc head args p positions =
      checkArguments doc head args p positions := by
  induction positions with
  | nil => rfl
  | cons position rest ih =>
    simp only [checkArguments, ih]
    cases hi : args[position]? with
    | none => rfl
    | some arg =>
      have hsite : ((p.part (position + 1)).site arg).InPlace form start := by
        have := h position arg hi
        rwa [Nat.add_comm 1] at this
      simp only [take_strict hsite, take_plain, pure_bind, Site.check_strict hsite]

theorem checkCall_strict (h : LeadsFrom form start p.offset p.path 1 args) :
    @checkCall (.strict form start refusal) doc head name args p =
      checkCall doc head name args p :=
  bind_congr fun _ => checkArguments_strict h _

theorem checkArgument_strict (hi : 0 < index) (h : LeadsFrom form start p.offset p.path 1 args) :
    @checkArgument (.strict form start refusal) doc shape head args index p =
      checkArgument doc shape head args index p := by
  unfold checkArgument
  cases harg : args[index - 1]? with
  | none => rfl
  | some arg =>
    have hpart := h (index - 1) arg harg
    rw [Nat.add_sub_cancel' hi] at hpart
    exact checkExpr_strict (p.part index) hpart

theorem visitGenericMode_strict (h : LeadsFrom form start p.offset p.path 1 args) :
    @visitGenericMode (.strict form start refusal) doc head args p =
      visitGenericMode doc head args p := by
  simp only [visitGenericMode, checkArgument_strict (by decide : 0 < 4) h,
    checkArgument_strict (by decide : 0 < 5) h]

/-- Rules are arguments of the call, counted from the first. -/
theorem checkRules_strict (h : LeadsFrom form start p.offset p.path index items) :
    @checkRules (.strict form start refusal) doc head p index items =
      checkRules doc head p index items := by
  induction items generalizing index with
  | nil => rfl
  | cons rule rest ih =>
    unfold checkRules
    rw [ih h.tail]
    split
    · rw [checkExpr_strict ((p.part index).part 0) h.cons.1.members.cons.1]
    · rfl

mutual

/-- Inside a structured regexp, paths grow with the forms. -/
theorem checkClauses_strict (p : Place) (v : Value) (h : Leads form start p.offset p.path v) :
    @checkClauses (.strict form start refusal) doc name p v = checkClauses doc name p v := by
  unfold checkClauses
  split
  · exact checkExpr_strict (p.part 1) h.args.cons.1
  · exact checkExpr_strict (p.part 1) h.args.cons.1
  · rw [checkClausesFrom_strict p 1 _ h.args]
  · rw [checkClausesFrom_strict p 1 _ h.args]
  · rfl

theorem checkClausesFrom_strict (p : Place) (index : Nat) (items : List Value)
    (h : LeadsFrom form start p.offset p.path index items) :
    @checkClausesFrom (.strict form start refusal) doc name p index items =
      checkClausesFrom doc name p index items := by
  unfold checkClausesFrom
  split
  · rfl
  · rename_i v rest
    rw [checkClauses_strict (p.part index) v h.cons.1,
      checkClausesFrom_strict p (index + 1) rest h.tail]

end

theorem visitRx_strict (h : LeadsFrom form start p.offset p.path 1 args) :
    @visitRx (.strict form start refusal) doc args p = visitRx doc args p := by
  simp only [visitRx, checkClausesFrom_strict p 1 args h]

theorem visitRxToString_strict (h : LeadsFrom form start p.offset p.path 1 args) :
    @visitRxToString (.strict form start refusal) doc args p = visitRxToString doc args p := by
  unfold visitRxToString
  split
  · rw [checkClauses_strict ((p.part 1).part 1) _ h.cons.1.args.cons.1]
  · rfl

theorem visitSkip_strict {check' check : Site → String → String → Analyze Unit}
    (hcheck : ∀ site name text, site.InPlace form start →
      check' site name text = check site name text)
    (h : LeadsFrom form start p.offset p.path 1 args) :
    @visitSkip (.strict form start refusal) doc check' head args p =
      visitSkip doc check head args p := by
  unfold visitSkip
  split
  · have hsite : ((p.part 1).site _).InPlace form start := h.cons.1
    simp only [take_strict hsite, take_plain, pure_bind, hcheck _ _ _ hsite,
      checkOrigin_strict h.cons.1]
  · rfl

theorem visitAddToList_strict (h : LeadsFrom form start p.offset p.path 1 args) :
    @visitAddToList (.strict form start refusal) doc args p = visitAddToList doc args p := by
  unfold visitAddToList
  split
  · simp only [checkElement_strict (p.part 2) h.tail.cons.1]
  · rfl

theorem visitSet_strict (h : LeadsFrom form start p.offset p.path 1 args) :
    @visitSet (.strict form start refusal) doc args p = visitSet doc args p := by
  unfold visitSet
  split
  · simp only [checkExpr_strict (p.part 2) h.tail.cons.1]
  · rfl

/-! Parts that are visited and checked -/

/-- An assigned expression stands one behind its variable. -/
theorem visitPairs_strict {index : Nat} {items : List Value} (hv : Coincide form start visit' visit)
    (h : LeadsFrom form start p.offset p.path index items) :
    @visitPairs (.strict form start refusal) doc visit' p index items =
      visitPairs doc visit p index items := by
  match items with
  | [] => rfl
  | [_] => rfl
  | target :: expr :: rest =>
    have hexpr := h.tail.cons.1
    have hrest := visitPairs_strict hv h.tail.tail
    simp only [visitPairs, hv expr (p.part (index + 1)) (.inr hexpr), hrest,
      checkExpr_strict (p.part (index + 1)) hexpr]

/-- The expression that is pushed comes before the variable. -/
theorem visitPush_strict (hv : Coincide form start visit' visit)
    (h : LeadsFrom form start p.offset p.path 1 args) :
    @visitPush (.strict form start refusal) doc visit' head args p =
      visitPush doc visit head args p := by
  unfold visitPush
  split
  · simp only [hv _ (p.part 1) (.inr h.cons.1), checkElement_strict (p.part 1) h.cons.1]
  · rw [hv _ (p.part 1) (.inr h.cons.1), hv _ (p.fixed.part 2) (.inr h.tail.cons.1)]
  · rfl

theorem visitVariable_strict (hv : Coincide form start visit' visit)
    (h : LeadsFrom form start p.offset p.path 1 args) :
    @visitVariable (.strict form start refusal) doc visit' head args p =
      visitVariable doc visit head args p := by
  unfold visitVariable
  split
  · rfl
  · simp only [hv _ (p.fixed.part 2) (.inr h.tail.cons.1),
      checkExpr_strict (p.fixed.part 2) h.tail.cons.1]
  · rfl

/-! The walk -/

/-- Every construct keeps its sites and reports in place. -/
theorem Construct.run_strict {visit' visit : Nat → Visitor} {c : Construct}
    (hv : ∀ calls, Coincide form start (visit' calls) (visit calls))
    (h : Leads form start p.offset p.path (.list (.sym head :: args))) :
    @Construct.run (.strict form start refusal) doc visit' c head args p =
      c.run doc visit head args p := by
  have hargs := h.args
  have hsite : (p.site (.list (.sym head :: args))).InPlace form start := h
  cases c with
  | quoted => rfl
  | pop => rfl
  | definition => exact visitDefinition_strict (hv 3) hargs
  | lambda => exact visitLambda_strict (hv 3) hargs
  | letForm => exact visitLet_strict (hv 1) (hv 2) hargs
  | loop => exact visitLoop_strict (hv 1) (hv 2) hargs
  | assignment => simp only [run, visitPairs_strict (hv 1) hargs]
  | push => exact visitPush_strict (hv 1) hargs
  | addToList => exact visitAddToList_strict hargs
  | set => exact visitSet_strict hargs
  | conditional => exact visitConditional_strict (hv 1) hargs
  | cond => simp only [run, visitClauses_strict (hv 1) hargs]
  | sequence => simp only [run, visitItems_strict p (hv 2) hargs]
  | definitionOfVariable => exact visitVariable_strict (hv 1) hargs
  | skipChars => exact visitSkip_strict (fun _ _ _ => Site.check_strict) hargs
  | skipSyntax => exact visitSkip_strict (fun _ _ _ => Site.checkSyntax_strict) hargs
  | concat =>
    have hpieces : args = (.sym head :: args).drop 1 := rfl
    simp only [run, take_strict hsite, take_plain, pure_bind, checkPieces_strict hsite rfl hpieces]
  | format =>
    simp only [run, take_strict hsite, take_plain, pure_bind, checkFormat_strict hsite rfl]
  | fontLock => simp only [run, checkArgument_strict (by decide : 0 < 2) hargs]
  | genericMode => exact visitGenericMode_strict hargs
  | syntaxRules => simp only [run, checkRules_strict hargs]
  | rx => exact visitRx_strict hargs
  | rxToString => exact visitRxToString_strict hargs

/-- One step of the walk never refuses, if the visits of its parts do not. -/
theorem visitStep_strict {visit' visit : Nat → Visitor}
    (hv : ∀ calls, Coincide form start (visit' calls) (visit calls)) :
    Coincide form start (@visitStep (.strict form start refusal) doc visit')
      (visitStep doc visit) := by
  rintro v p (rfl | h)
  · rfl
  · unfold visitStep
    split
    · exact visitItems_strict p.fixed (hv 1) (h.children fun _ => rfl)
    · simp only [Construct.run_strict hv h, checkCall_strict h.args,
        visitItems_strict p.fixed (hv 1) h.args]
    · exact visitItems_strict p.fixed (hv 1) h.members
    · rfl

/-- Induction on the depth of the walk and the calls under way. -/
theorem visit_strict (depth calls : Nat) :
    Coincide form start (@Analysis.visit (.strict form start refusal) doc depth calls)
      (Analysis.visit doc depth calls) := by
  induction depth generalizing calls with
  | zero => exact fun _ _ _ => rfl
  | succ depth ih =>
    cases calls with
    | zero => exact visitStep_strict ih
    | succ calls => exact ih calls

/-- Diagnostics about a literal point into it. Suppose a walk ended in a fault as soon as it
took up a site that is not where its path leads, or reported about a character with a path
that does not lead to the string that was checked. Whatever the fault, the walk through a form
would be the same as it is. -/
theorem visitTop_strict (doc : Document) (form : Value) (offset : Nat) (refusal : Fault) :
    @visitTop (.strict form offset refusal) doc form offset = visitTop doc form offset :=
  bind_congr fun env => congrArg Analyze.untilTooDeep
    (visit_strict maxDepth 0 form ⟨offset, [], env, []⟩ (.inr ⟨rfl, rfl⟩))

end PatternLint.Analysis
