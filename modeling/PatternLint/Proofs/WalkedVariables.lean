import PatternLint.Proofs.WalkedAssignments

/-! The variables of a `let` form at the top of a text. What the walk holds of them behind
assignments in a straight line is what the form evaluates to there, as long as no operand
has an effect of its own. -/

namespace PatternLint.Analysis

open Evaluation

variable {doc : Document} {defs : Definitions} {names names₁ : List String}
  {frame frame' env root' : FrameId} {w : Pairing} {f g : Findings} {t s' t' u' : Store}
  {init v v' : Value} {name : String} {depth : Nat} {scope' : Scope} {p : Place} {visit : Visitor}
  {bs : List (String × Value)}

theorem bindings_plain (h : v.IsPlain) (hbs : bindings? v = some bs) : ∀ b ∈ bs, b.2.IsPlain :=
  of_bindings? Value.isPlain_nil (fun _ => Value.isPlain_list.1) h hbs

theorem InBody.subset (h : InBody doc defs names scope') (hsub : ∀ name ∈ names₁, name ∈ names) :
    InBody doc defs names₁ scope' :=
  { h with mutables := fun name hname => h.mutables name (hsub name hname) }

theorem InBody.binding (h : InBody doc defs names scope') (bound : List String) :
    InBody doc defs (bound ++ names) (scope'.binding bound) where
  plain := h.plain
  cdr := h.cdr
  scope := h.scope
  mutables name hname := by
    rw [Scope.binding]
    exact List.mem_append.2 ((List.mem_append.1 hname).imp id (h.mutables name))

theorem Linked.subset (h : Linked defs names frame frame' w f s')
    (hsub : ∀ name ∈ names₁, name ∈ names) : Linked defs names₁ frame frame' w f s' :=
  { h with bound := fun name hname => h.bound name (hsub name hname) }

/-- A variable that gets its first value in both. -/
theorem Linked.bind (h : Linked defs names frame frame' w f s') (hv : Matches w.labels v v')
    (name : String) :
    Linked defs (name :: names) frame frame' w
      { f with store := { f.store with frames := f.store.frames.define frame name v } }
      { s' with frames := s'.frames.define frame' name v' } where
  defs := h.defs
  alike := (h.define hv name).alike
  twins := h.twins
  bound other hother := by
    rcases List.mem_cons.1 hother with rfl | hother
    · exact .define_self h.frame_lt
    · exact (h.bound other hother).define

theorem visitBindings_cons {sequential : Bool} {index : Nat} {inside : Place}
    (hinside : inside =
      if sequential then { p with env := frame, mutables := names ++ p.mutables } else p)
    (hvisit : visit init (((inside.part 1).part index).part 1) f = (.ok (), g))
    (hvalue : evaluate init (some inside.env) inside.mutables g.defs doc.loopLimit g.store =
      (.ok v, t)) :
    visitBindings doc visit sequential frame p index names ((name, init) :: bs) f =
      visitBindings doc visit sequential frame p (index + 1) (name :: names) bs
        { g with store := { t with frames := t.frames.define frame name v } } := by
  subst hinside
  rw [visitBindings]
  simp only [Analyze.bind_apply, hvisit, valueAt, value, Analyze.run_apply, hvalue]
  rfl

/-- The bindings of a sequential form, one by one. -/
theorem bindInTurn_agrees {inner : Scope} {index : Nat} (hctx : InBody doc defs names scope')
    (hplain : ∀ b ∈ bs, b.2.IsPlain) (hdepth : maxDepth ≤ depth + (p.path.length + 3))
    (hl : Linked defs names frame frame' w f s')
    (hwalk : visitBindings doc (guarded doc anyOutcome visit) true frame p index names bs f =
      (.ok (), g))
    (heval : bindInTurn .plain (eval depth) frame' scope' bs s' = (.ok inner, t')) :
    visitBindings doc visit true frame p index names bs f = (.ok (), g) ∧
      InBody doc defs (bs.map (·.1) ++ names) inner ∧
        ∃ w', w ≤ w' ∧ Linked defs (bs.map (·.1) ++ names) frame frame' w' g t' := by
  induction bs generalizing index names f w s' scope' with
  | nil =>
    obtain ⟨-, rfl⟩ := Analyze.pure_eq_ok hwalk
    obtain ⟨rfl, rfl⟩ := Eval.pure_eq_ok heval
    exact ⟨rfl, hctx, w, le_rfl, hl⟩
  | cons b bs ih =>
    obtain ⟨name, init⟩ := b
    obtain ⟨_, f₁, hinit, -⟩ := Analyze.bind_eq_ok (by rwa [visitBindings] at hwalk)
    obtain ⟨v, u', hv, heval⟩ := Eval.bind_eq_ok heval
    obtain ⟨hvisit, hl₁, a, t, -, hrun, w₁, hw₁, hl₂, -, ha⟩ := operand_agrees hctx hl rfl
      (hplain _ (.head _)) hdepth hinit hv
    have hvalue := evaluate_of_confinedIn (Nat.sub_le _ _) hrun
    rw [visitBindings_cons rfl hinit hvalue] at hwalk
    rw [visitBindings_cons rfl hvisit hvalue]
    have hsub : ∀ n ∈ (name :: bs.map (·.1)) ++ names, n ∈ bs.map (·.1) ++ (name :: names) := by
      intro n hn
      simp only [List.mem_append, List.mem_cons] at hn ⊢
      tauto
    obtain ⟨hsame, hinner, w₂, hw₂, hl₃⟩ := ih (hctx.binding [name])
      (fun b hb => hplain b (.tail _ hb)) (hl₂.bind ha name) hwalk heval
    exact ⟨hsame, hinner.subset hsub, w₂, le_trans hw₁ hw₂, hl₃.subset hsub⟩

/-- The walk before the variables are there for the evaluation: their frame
stands for nothing yet. -/
structure Ahead (defs : Definitions) (env root' frame : FrameId)
    (W : Pairing.Without (· = frame)) (f : Findings) (vars : Table Value) (s' : Store) : Prop where
  defs : f.defs = defs
  beside : f.store.Beside (· = frame) W s'
  twins : W.1.twins env root'
  frame : f.store.frames[frame]? = some ⟨vars, some env⟩

namespace Ahead

variable {W : Pairing.Without (· = frame)} {vars : Table Value}

theorem kept (h : Ahead defs env root' frame W f vars s') (hk : f.store.Kept g.store)
    (hd : g.defs = f.defs) : Ahead defs env root' frame W g vars s' where
  defs := hd.trans h.defs
  beside := ⟨h.beside.1.kept hk (.refl s'), fun i hi =>
    Nat.lt_of_lt_of_le (h.beside.2 i hi) hk.frames.size⟩
  twins := h.twins
  frame := (hk.frames.same frame (h.beside.2 frame rfl)).trans h.frame

theorem define (h : Ahead defs env root' frame W f vars s') (name : String) (v : Value) :
    Ahead defs env root' frame W
      { f with store := { f.store with frames := f.store.frames.define frame name v } }
      (vars.put name v) s' where
  defs := h.defs
  beside := ⟨h.beside.1.defineFree (fun i' => W.2 frame i' rfl) name v, fun i hi => by
    rw [Frames.size_define]
    exact h.beside.2 i hi⟩
  twins := h.twins
  frame := by rw [Frames.getElem?_define_self, h.frame, Option.map_some]

/-- The value of an operand is the same in both. -/
theorem evaluated {mutables : List String} {depth' : Nat} (hctx : InBody doc defs names scope')
    (h : Ahead defs env root' frame W f vars s') (hx : init.IsPlain) (hd : depth ≤ depth')
    (hrun : confinedIn depth init env mutables defs doc.loopLimit f.store = (.ok v, t))
    (hrun' : eval depth' init root' scope' s' = (.ok v', t')) :
    ∃ W', W ≤ W' ∧ Ahead defs env root' frame W' { f with store := t } vars t' ∧
      Matches W'.1.labels v v' := by
  obtain ⟨W', hW, ht, -, hv⟩ := confinedIn_inPlace h.beside (.inl h.twins) hx hctx.plain hctx.scope
    hd hrun hrun'
  have hkeeps := (eval_of_confinedIn hd hrun).2
  have hle : W.1 ≤ W'.1 := hW
  exact ⟨W', hW, ⟨h.defs, ht, hle.twins h.twins,
    (hkeeps.same frame (h.beside.2 frame rfl)).trans h.frame⟩, hv⟩

end Ahead

/-- The bindings of a form that is not sequential: the evaluation has all values before it makes the
frame. -/
theorem operands_agree {W : Pairing.Without (· = frame)} {vars : Table Value} {index : Nat}
    {vs' : List Value} (hctx : InBody doc defs [] scope') (hplain : ∀ b ∈ bs, b.2.IsPlain)
    (hp : p.env = env) (hdepth : maxDepth ≤ depth + (p.path.length + 3))
    (ha : Ahead defs env root' frame W f vars s')
    (hwalk : visitBindings doc (guarded doc anyOutcome visit) false frame p index names bs f =
      (.ok (), g))
    (heval : (eval depth).operands (bs.map (·.2)) root' scope' s' = (.ok vs', t')) :
    visitBindings doc visit false frame p index names bs f = (.ok (), g) ∧
      ∃ W' vs, W ≤ W' ∧ vs.length = bs.length ∧ MatchesAll W'.1.labels vs vs' ∧
        Ahead defs env root' frame W' g
          (((bs.map (·.1)).zip vs).foldl (fun vars b => vars.put b.1 b.2) vars) t' := by
  subst hp
  induction bs generalizing index names f W vars s' vs' with
  | nil =>
    obtain ⟨-, rfl⟩ := Analyze.pure_eq_ok hwalk
    obtain ⟨rfl, rfl⟩ := Eval.pure_eq_ok heval
    exact ⟨rfl, W, [], le_rfl, rfl, .nil, ha⟩
  | cons b bs ih =>
    obtain ⟨name, init⟩ := b
    obtain ⟨_, f₁, hinit, -⟩ := Analyze.bind_eq_ok (by rwa [visitBindings] at hwalk)
    obtain ⟨v', more', u', rfl, hv', hmore⟩ := operands_cons_eq_ok heval
    obtain ⟨hvisit, v, t, hc, -⟩ := guarded_eq_ok hinit
    obtain ⟨hkept, hdefs, hrun⟩ := hc
    rw [hvisit] at hkept hdefs hrun
    have ha₁ := ha.kept hkept hdefs
    have hd : maxDepth - (((p.part 1).part index).part 1).path.length ≤ depth := by
      simp only [Place.part, List.length_cons]
      omega
    obtain ⟨W₁, hW₁, ha₂, hv⟩ := ha₁.evaluated hctx (hplain _ (.head _)) hd (ha.defs ▸ hrun) hv'
    have hvalue := evaluate_of_confinedIn (Nat.sub_le _ _) (hdefs ▸ hrun)
    rw [visitBindings_cons rfl hinit hvalue] at hwalk
    rw [visitBindings_cons rfl hvisit hvalue]
    obtain ⟨hsame, W₂, vs, hW₂, hlength, hvs, ha₃⟩ := ih (fun b hb => hplain b (.tail _ hb))
      hwalk hmore (ha₂.define name v)
    have hle : W₁.1 ≤ W₂.1 := hW₂
    exact ⟨hsame, W₂, v :: vs, le_trans hW₁ hW₂, congrArg (· + 1) hlength,
      .cons (hv.mono hle.frames hle.serials) hvs, ha₃⟩

/-- The frame is made for the evaluation, too. -/
theorem Ahead.linked {W : Pairing.Without (· = frame)} {vs vs' : List Value}
    (ha : Ahead defs env root' frame W f (.ofList ((bs.map (·.1)).zip vs)) s')
    (hlength : vs.length = bs.length) (hvs : MatchesAll W.1.labels vs vs') (hlt : env < frame) :
    ∃ w', Linked defs (bs.map (·.1)) frame s'.frames.size w' f { s' with
      frames := s'.frames.push ⟨.ofList ((bs.map (·.1)).zip vs'), some root'⟩ } := by
  have hzip : SameBindings False W.1.labels ((bs.map (·.1)).zip vs) ((bs.map (·.1)).zip vs') :=
    Simulation.Bound.zip (S := Simulation.confined 0 (· = frame)) _ (hvs.imp fun _ _ => .inl)
  obtain ⟨w', -, htwins, halike⟩ := ha.beside.1.newTwin (fun i' => W.2 frame i' rfl) ha.frame
    (.inl ha.twins) hlt hzip.ofList
  refine ⟨w', ha.defs, halike, htwins, fun name hname =>
    ⟨_, ha.frame, (Table.contains_ofList _ name).2 ?_⟩⟩
  rwa [List.map_fst_zip (by simp [hlength])]

/-- A variable of the form has the same value in both. -/
theorem Linked.variable (h : Linked defs names frame frame' w f s') (hname : name ∈ names)
    (hvar : name ≠ "nil" ∧ name ≠ "t" ∧ Value.isKeywordName name = false)
    (heval : eval depth (.sym name) frame' scope' s' = (.ok v', t')) :
    ∃ v, f.store.frames.valueIn? name frame = some v ∧ Matches w.labels v v' := by
  have hbound := h.bound name hname
  have hvalue : f.store.frames.symbol? name frame = f.store.frames.valueIn? name frame := by
    simp [Frames.symbol?, hvar, Frames.lookup?, hbound.find?]
  obtain ⟨v, hv⟩ := Option.isSome_iff_exists.1 (symbol?_isSome hbound)
  obtain ⟨u, hu, hmatches⟩ := rel_some (hv ▸ symbol?_matches h.alike (.inl h.twins) name)
  obtain ⟨rfl, -⟩ := eval_symbol_eq_ok heval hu
  exact ⟨v, hvalue ▸ hv, hmatches⟩

/-- With a new frame. -/
def opened (outer : Option FrameId) (f : Findings) : Findings :=
  { f with store := { f.store with frames := f.store.frames.push ⟨.ofList [], outer⟩ } }

theorem newFrame_apply (outer : Option FrameId) (f : Findings) :
    newFrame outer [] f = (.ok f.store.frames.size, opened outer f) :=
  rfl

/-- What the walk does up to the forms that follow, step by step. -/
theorem walkLet_eq_ok {visitInit visitForm : Visitor} {head : String} {forms : List Value}
    {offset : Nat} :
    walkLet doc visitInit visitForm head bs forms offset f = (.ok frame, g) ↔
      frame = (opened none f).store.frames.size ∧
        ∃ h, visitBindings doc visitInit (decide (head = "let*")) frame
            ⟨offset, [], f.store.frames.size, []⟩ 0 [] bs
            (opened (some f.store.frames.size) (opened none f)) = (.ok (), h) ∧
          visitItems visitForm ⟨offset, [], frame, bs.map (·.1)⟩ 2 forms h = (.ok (), g) := by
  constructor
  · intro hwalk
    obtain ⟨env, f₀, hroot, hwalk⟩ := Analyze.bind_eq_ok hwalk
    cases hroot
    obtain ⟨_, f₁, hframe, hwalk⟩ := Analyze.bind_eq_ok hwalk
    cases hframe
    obtain ⟨_, h, hbindings, hwalk⟩ := Analyze.bind_eq_ok hwalk
    obtain ⟨_, f₃, hitems, hwalk⟩ := Analyze.bind_eq_ok hwalk
    obtain ⟨rfl, rfl⟩ := Analyze.pure_eq_ok hwalk
    exact ⟨rfl, h, hbindings, hitems⟩
  · rintro ⟨rfl, h, hbindings, hitems⟩
    rw [walkLet, Analyze.bind_of_ok (newFrame_apply none f),
      Analyze.bind_of_ok (newFrame_apply _ (opened none f)), Analyze.bind_of_ok hbindings,
      Analyze.bind_of_ok hitems]
    rfl

/-- From the bindings on, both go through the body. -/
theorem body_agrees {forms : List Value} {limit calls offset : Nat}
    (hctx : InBody doc defs names scope')
    (hforms : ∀ form ∈ forms, StraightLine names form ∧ form.IsPlain)
    (hname : name ∈ names)
    (hvar : name ≠ "nil" ∧ name ≠ "t" ∧ Value.isKeywordName name = false)
    (hl : Linked defs names frame frame' w f s')
    (hwalk : visitItems (cautiousVisit doc limit calls) ⟨offset, [], frame, names⟩ 2 forms f =
      (.ok (), g))
    (heval : (eval 999).body (forms ++ [.sym name]) frame' scope' s' = (.ok v', t'))
    (hv' : v' ≠ .unknown) :
    visitItems (Analysis.visit doc limit calls) ⟨offset, [], frame, names⟩ 2 forms f = (.ok (), g) ∧
      ∃ v, g.store.frames.valueIn? name frame = some v ∧ v.erased = v'.erased := by
  have hkeep : ∀ form ∈ forms, KeepsUp doc defs names frame frame' scope' limit calls 999 form :=
    fun form hform => straightLine_keepsUp hctx (hforms form hform).1 (hforms form hform).2
  obtain ⟨hvisit, w', u', v, -, hlinked, hrest, hsame⟩ := items_keepUp
    (p := ⟨offset, [], frame, names⟩) hkeep rfl rfl (Nat.le_refl _) hl hwalk heval hv'
  obtain rfl := hsame (List.cons_ne_nil _ _)
  obtain ⟨a, ha, hmatches⟩ := hlinked.variable hname hvar hrest
  exact ⟨hvisit, a, ha, hmatches.erased_eq⟩

/-- From the frame around on, both come to the body. -/
theorem letBindings_agree {sequential : Bool} {bindings : Value} {body : List Value} {offset : Nat}
    (hctx : InBody doc defs [] scope') (hbs : bindings? bindings = some bs)
    (hplain : bindings.IsPlain) (hd : f.defs = defs) (hs : f.store.Alike False w s')
    (htwins : w.twins env root') (hframe : frame = f.store.frames.size)
    (hwalk : visitBindings doc (guarded doc anyOutcome visit) sequential frame
      ⟨offset, [], env, []⟩ 0 [] bs (opened (some env) f) = (.ok (), g))
    (heval : (if sequential then letStarForm .plain (eval 999) else letForm .plain (eval 999))
      (bindings :: body) root' scope' s' = (.ok v', t')) :
    visitBindings doc visit sequential frame ⟨offset, [], env, []⟩ 0 [] bs
        (opened (some env) f) = (.ok (), g) ∧
      ∃ inner frame' u' w', InBody doc defs (bs.map (·.1)) inner ∧
        Linked defs (bs.map (·.1)) frame frame' w' g u' ∧
          (eval 999).body body frame' inner u' = (.ok v', t') := by
  have hplain := bindings_plain hplain hbs
  have hdepth : maxDepth ≤ 999 + (([] : Reader.Path).length + 3) := by decide
  subst hframe
  cases sequential with
  | true =>
    simp only [if_true, letStarForm, hbs] at heval
    obtain ⟨frame', u₀, hnew, heval⟩ := Eval.bind_eq_ok heval
    cases hnew
    obtain ⟨inner, u', hturn, heval⟩ := Eval.bind_eq_ok heval
    obtain ⟨w₁, -, -, htwins₁, hs₁⟩ := hs.newFrame (.some (.inl htwins)) .nil
    have hl : Linked defs [] _ _ w₁ (opened (some env) f) _ :=
      ⟨hd, hs₁, htwins₁, fun _ h => (List.not_mem_nil h).elim⟩
    obtain ⟨hsame, hinner, w', -, hlinked⟩ := bindInTurn_agrees hctx hplain hdepth hl hwalk hturn
    rw [List.append_nil] at hinner hlinked
    exact ⟨hsame, inner, _, u', w', hinner, hlinked, heval⟩
  | false =>
    simp only [Bool.false_eq_true, if_false, letForm, hbs] at heval
    obtain ⟨vs', u₁, hops, heval⟩ := Eval.bind_eq_ok heval
    obtain ⟨frame', u', hnew, heval⟩ := Eval.bind_eq_ok heval
    cases hnew
    have hlt : ∀ i i', w.labels.frames i i' → i < f.store.frames.size := fun _ _ hi =>
      (hs.frames_lt hi).1
    let W : Pairing.Without (· = f.store.frames.size) :=
      ⟨w, fun i i' hi hfr => Nat.ne_of_lt (hlt i i' hfr) hi⟩
    have ha : Ahead defs env root' f.store.frames.size W (opened (some env) f) (.ofList []) s' := by
      refine ⟨hd, ⟨hs.kept (Store.Alike.kept_push f.store _) (.refl s'), ?_⟩, htwins,
        Array.getElem?_push_size⟩
      rintro i rfl
      exact Nat.lt_of_lt_of_eq (Nat.lt_succ_self _) (Array.size_push _).symm
    obtain ⟨hsame, W', vs, -, hlength, hvs, ha'⟩ :=
      operands_agree hctx hplain rfl hdepth ha hwalk hops
    obtain ⟨w', hlinked⟩ := Ahead.linked ha' hlength hvs (hlt _ _ (.inl htwins))
    have hinner := hctx.binding (bs.map (·.1))
    rw [List.append_nil] at hinner
    exact ⟨hsame, _, _, _, w', hinner, hlinked, heval⟩

/-- The variables of a `let` form behind assignments in a straight line: the walk comes
there, and the frame holds for each variable what the form with the variable behind the
assignments evaluates to. -/
theorem walkedVariable_agrees {head : String} {bindings : Value} {forms rest : List Value}
    {offset : Nat} (hhead : head = "let" ∨ head = "let*") (hbs : bindings? bindings = some bs)
    (hforms : ∀ form ∈ forms, StraightLine (bs.map (·.1)) form)
    (hplain : (Value.list (.sym head :: bindings :: forms)).IsPlain)
    (hdefs : f.defs.IsPlain)
    (hcdr : f.defs.functions.get? "cdr" = none ∧ f.defs.macros.get? "cdr" = none ∧
      f.defs.aliases.get? "cdr" = none)
    (hstore : f.store.Alike False f.store.identity f.store) (hname : name ∈ bs.map (·.1))
    (hvar : name ≠ "nil" ∧ name ≠ "t" ∧ Value.isKeywordName name = false)
    (hwalk : walkLet doc (guarded doc anyOutcome (Analysis.visit doc (maxDepth - 1) 1))
      (cautiousVisit doc (maxDepth - 1) 2) head bs forms offset f = (.ok frame, g))
    (heval : evaluate (.list (.sym head :: bindings :: (forms ++ [.sym name]))) none [] f.defs
      doc.loopLimit f.store = (.ok v', t'))
    (hv' : v' ≠ .unknown) :
    visitTop doc (.list (.sym head :: bindings :: (forms ++ rest))) offset f =
        Analyze.untilTooDeep (visitItems (Analysis.visit doc (maxDepth - 1) 2)
          ⟨offset, [], frame, bs.map (·.1)⟩ (2 + forms.length) rest) g ∧
      ∃ v, g.store.frames.valueIn? name frame = some v ∧ v.erased = v'.erased := by
  have hseq : ∃ sequential, decide (head = "let*") = sequential ∧
      SpecialForm.named? head = some (if sequential then .letStarForm else .letForm) := by
    rcases hhead with rfl | rfl
    · exact ⟨false, rfl, rfl⟩
    · exact ⟨true, rfl, rfl⟩
  obtain ⟨sequential, hsequential, hs⟩ := hseq
  obtain ⟨hframe, f₂, hbindings, hitems⟩ := walkLet_eq_ok.1 hwalk
  obtain ⟨root', s₀, hroot, heval⟩ := Eval.bind_eq_ok heval
  cases hroot
  have heval := Eval.orDefault_eq_ok heval hv'
  rw [show maxDepth = 999 + 1 from rfl, evalBy_form hs] at heval
  have heval : (if sequential then letStarForm .plain (eval 999) else letForm .plain (eval 999))
      (bindings :: (forms ++ [.sym name])) f.store.frames.size
      ⟨f.defs, f.store.frames.size, [], [], [], doc.loopLimit⟩ (opened none f).store =
        (.ok v', t') := by
    cases sequential <;> exact heval
  have hforms : ∀ form ∈ forms, StraightLine (bs.map (·.1)) form ∧ form.IsPlain := fun form hform =>
    ⟨hforms form hform, plain_args hplain form (.tail _ hform)⟩
  obtain ⟨w, -, -, htwins, halike⟩ := hstore.newFrame .none .nil
  have halike : Store.Alike False w (opened none f).store (opened none f).store := halike
  have hctx : InBody doc f.defs [] ⟨f.defs, f.store.frames.size, [], [], [], doc.loopLimit⟩ :=
    ⟨hdefs, hcdr, ⟨rfl, rfl, rfl⟩, fun _ h => nomatch h⟩
  rw [hsequential] at hbindings
  obtain ⟨hsame, inner, frame', u', w', hinner, hlinked, hbody⟩ := letBindings_agree
    (f := opened none f) hctx hbs
    (plain_args hplain bindings (.head _)) rfl halike htwins hframe hbindings
    heval
  obtain ⟨hvisit, hvalue⟩ := body_agrees hinner hforms hname hvar hlinked hitems hbody hv'
  have hwalked := walkLet_eq_ok.2 ⟨hframe, f₂, hsequential ▸ hsame, hvisit⟩
  exact ⟨visitTop_let hhead hbs hwalked, hvalue⟩

/-- Lets an operand pass whose visit and whose evaluation have no effect. -/
theorem guarded_effectless {expr : Value} (hvisit : visit expr p f = (.ok (), f))
    (hrun : (confinedIn (maxDepth - p.path.length) expr p.env p.mutables f.defs doc.loopLimit
      f.store).1.isOk) :
    guarded doc anyOutcome visit expr p f = (.ok (), f) ∧
      ∃ v t, evaluate expr (some p.env) p.mutables f.defs doc.loopLimit f.store = (.ok v, t) ∧
        Keeps f.store.frames.size f.store.frames t.frames := by
  rcases h : confinedIn (maxDepth - p.path.length) expr p.env p.mutables f.defs
    doc.loopLimit f.store
    with ⟨_ | v, t⟩
  · rw [h] at hrun
    cases hrun
  · have hc : Contained doc visit expr p f v t := by
      constructor <;> rw [hvisit]
      · exact .refl _
      · exact h
    exact ⟨(if_pos ⟨v, t, hc, trivial⟩).trans hvisit, v, t,
      evaluate_of_confinedIn (Nat.sub_le _ _) h,
      (eval_of_confinedIn (Nat.le_refl _) h).2⟩

theorem empty_alike : Store.empty.Alike False Store.empty.identity Store.empty where
  twins _ _ h := absurd h.2 (Nat.not_lt_zero _)
  shadows _ _ h := h.elim
  serials _ _ h := absurd h.2 (Nat.not_lt_zero _)
  globals _ := .none

/-- A text in which no pattern has a problem. -/
def flawless : Document :=
  ⟨"a.el", [], fun _ => .ok [], fun _ => .ok [], 1000⟩

/-- The bindings `((x "a"))`. -/
def boundX : Value :=
  .list [.list [.sym "x", .str "a"]]

/-- The form `(if x "b" x)`. -/
def choice : Value :=
  .list [.sym "if", .sym "x", .str "b", .sym "x"]

/-- The form `(setq x (if x "b" x))`. -/
def assignment : Value :=
  .list [.sym "setq", .sym "x", choice]

/-- The form `(let ((x "a")) (setq x (if x "b" x)) x)`. -/
def assignedX : Value :=
  .list [.sym "let", boundX, assignment, .sym "x"]

/-- In the body of that form. -/
def whereBound : Findings :=
  { Findings.empty with store :=
    ⟨#[⟨⟨[]⟩, none⟩, ⟨⟨[("x", .str "a")]⟩, some 0⟩, ⟨⟨[]⟩, some 0⟩], 0, .empty⟩ }

theorem walkLet_assignment : ∃ g, walkLet flawless (guarded flawless anyOutcome
    (Analysis.visit flawless (maxDepth - 1) 1)) (cautiousVisit flawless (maxDepth - 1) 2) "let"
    [("x", .str "a")] [assignment] 0 .empty = (.ok 1, g) := by
  have hinit : guarded flawless anyOutcome (Analysis.visit flawless 999 1)
      (.str "a") ⟨0, [1, 0, 1], 0, []⟩
        (opened (some 0) (opened none .empty)) = (.ok (), opened (some 0) (opened none .empty)) :=
    (guarded_effectless rfl rfl).1
  have hbindings : visitBindings flawless
      (guarded flawless anyOutcome (Analysis.visit flawless 999 1))
        false 1 ⟨0, [], 0, []⟩ 0 [] [("x", .str "a")] (opened (some 0) (opened none .empty)) =
          (.ok (), whereBound) := by
    rw [visitBindings_cons rfl hinit rfl]
    rfl
  let here : Place := ⟨0, [2], 1, ["x"]⟩
  obtain ⟨hpass, v, t, hvalue, hkeeps⟩ := guarded_effectless
    (rfl : Analysis.visit flawless 996 1 choice (here.part 2) whereBound = (.ok (), whereBound))
    (by decide +kernel : (confinedIn (maxDepth - 2) choice 1 ["x"] .empty flawless.loopLimit
      whereBound.store).1.isOk)
  have hbound : whereBound.store.frames.Binds 1 "x" := ⟨_, rfl, by decide⟩
  obtain ⟨g, hassign⟩ : ∃ g, assignAt flawless "x" choice here whereBound = (.ok (), g) :=
    ⟨_, assignAt_eq (.head _) (hbound.of_same (hkeeps.same 1 (by decide))) hvalue⟩
  have hset : cautiousVisit flawless 999 2 assignment here whereBound = (.ok (), g) := by
    refine visitStep_of_done (rfl : Construct.named? "setq" = some .assignment) ?_
    rw [Construct.run, Analyze.bind_of_ok (visitPairs_bound hpass hbound hassign)]
    rfl
  refine ⟨g, walkLet_eq_ok.2 ⟨rfl, whereBound, hbindings, ?_⟩⟩
  rw [visitItems]
  exact Analyze.bind_of_ok hset

/-- Whether a run gave a string. -/
def givesText (text : String) (r : Except Fault Value × Store) : Bool :=
  match r.1 with
  | .ok (.str s) => s == text
  | _ => false

theorem givesText_ok {text : String} {r : Except Fault Value × Store}
    (h : givesText text r = true) : ∃ t, r = (.ok (.str text), t) := by
  obtain ⟨_ | v, t⟩ := r
  · cases h
  · cases v with
    | str s => exact ⟨t, by rw [eq_of_beq h]⟩
    | _ => cases h

theorem assignedX_agrees : ∃ g t', evaluate assignedX none [] .empty 1000 .empty =
      (.ok (.str "b"), t') ∧
    visitTop flawless assignedX 0 .empty =
        Analyze.untilTooDeep (visitItems (Analysis.visit flawless (maxDepth - 1) 2)
          ⟨0, [], 1, ["x"]⟩ 3 [.sym "x"]) g ∧
      ∃ v, g.store.frames.valueIn? "x" 1 = some v ∧ v.erased = (Value.str "b").erased := by
  obtain ⟨g, hwalk⟩ := walkLet_assignment
  obtain ⟨t', heval⟩ := givesText_ok (by decide +kernel :
    givesText "b" (evaluate assignedX none [] .empty 1000 .empty))
  have hplain : (Value.list [.sym "let", boundX, assignment]).IsPlain :=
    .list (.cons (.sym _) (.cons (.list (.cons (.list (.cons (.sym _) (.cons (.str _) .nil))) .nil))
      (.cons (.list (.cons (.sym _) (.cons (.sym _) (.cons (.list (.cons (.sym _) (.cons (.sym _)
        (.cons (.str _) (.cons (.sym _) .nil))))) .nil)))) .nil)))
  have hforms : ∀ form ∈ [assignment], StraightLine ["x"] form :=
    List.forall_mem_singleton.2 (.setq ⟨.head _, trivial⟩)
  have hdefs : Definitions.empty.IsPlain := by
    rintro name d (hd | hd) <;> cases hd
  obtain ⟨hvisit, hvalue⟩ := walkedVariable_agrees (.inl rfl) rfl hforms hplain hdefs
    ⟨rfl, rfl, rfl⟩ empty_alike (.head _) (by decide) hwalk heval nofun
  exact ⟨g, t', heval, hvisit, hvalue⟩

/-- The bindings `((x '("a" "b")) (y nil))`. -/
def boundXY : Value :=
  .list [.list [.sym "x", .list [.sym "quote", .list [.str "a", .str "b"]]], .list [.sym "y", .nil]]

/-- The form `(setq y (pop x))`. -/
def poppedOperand : Value :=
  .list [.sym "setq", .sym "y", .list [.sym "pop", .sym "x"]]

/-- Whether a walk came to its end and holds a string in the frame of the variables. -/
def holdsText (name text : String) (r : Except Fault Unit × Findings) : Bool :=
  match r.1, r.2.store.frames.valueIn? name 1 with
  | .ok (), some (.str s) => s == text
  | _, _ => false

theorem holdsText_ok {name text : String} {r : Except Fault Unit × Findings}
    (h : holdsText name text r = true) :
    ∃ g, r = (.ok (), g) ∧ g.store.frames.valueIn? name 1 = some (.str text) := by
  obtain ⟨r, g⟩ := r
  unfold holdsText at h
  split at h
  · rename_i hr hv
    exact ⟨g, congrArg (·, g) hr, hv.trans (by rw [eq_of_beq h])⟩
  · cases h

/-- The walk pops `x` when it visits the operand, and again when it evaluates it. -/
theorem poppedOperand_differs :
    StraightLine ["x", "y"] poppedOperand ∧ ∃ g t',
      visitTop flawless (.list [.sym "let", boundXY, poppedOperand]) 0 .empty = (.ok (), g) ∧
        g.store.frames.valueIn? "y" 1 = some (.str "b") ∧
        evaluate (.list [.sym "let", boundXY, poppedOperand, .sym "y"]) none [] .empty 1000 .empty =
          (.ok (.str "a"), t') := by
  refine ⟨.setq ⟨.tail _ (.head _), trivial⟩, ?_⟩
  obtain ⟨g, hvisit, hb⟩ := holdsText_ok (by decide +kernel : holdsText "y" "b"
    (visitTop flawless (.list [.sym "let", boundXY, poppedOperand]) 0 .empty))
  obtain ⟨t', ha⟩ := givesText_ok (by decide +kernel : givesText "a"
    (evaluate (.list [.sym "let", boundXY, poppedOperand, .sym "y"]) none [] .empty 1000 .empty))
  exact ⟨g, t', hvisit, hb, ha⟩

end PatternLint.Analysis
