import PatternLint.Primitive.Sort
import PatternLint.Primitive.Table
import PatternLint.Proofs.Agreement
import PatternLint.Proofs.AgreementText

/-! Lists and vectors of matching values, and the sameness of two values. -/

namespace PatternLint

variable {c : Labels} {v v' x x' : Value} {xs xs' ys ys' : List Value}

section Equal

/-- Lists are compared item by item. -/
theorem sameAll_eq (h : List.Forall₂ (fun v v' => ∀ x x', Matches c x x' → v.same x = v'.same x')
    xs xs') (hy : MatchesAll c ys ys') : Value.sameAll xs ys = Value.sameAll xs' ys' := by
  induction h generalizing ys ys' with
  | nil => cases hy <;> rfl
  | cons h _ ih =>
    cases hy with
    | nil => rfl
    | cons hx hy => simp only [Value.sameAll, h _ _ hx, ih hy]

/-- Plain equality looks at the serial numbers of closures and at nothing else in them. -/
theorem Matches.same_eq (hc : c.Faithful) (h : Matches c v v') :
    ∀ x x', Matches c x x' → v.same x = v'.same x' := by
  refine h.induction_on ?nil ?str ?int ?float ?sym ?list ?dotted ?vec ?closure ?unknown
  case list =>
    intro xs ys _ ih x x' hx
    cases hx with
    | list hl => simpa only [Value.same] using sameAll_eq ih hl
    | _ => rfl
  case dotted =>
    intro xs ys x y _ ih _ iht z z' hz
    cases hz with
    | dotted hl ht => simp only [Value.same, sameAll_eq ih hl, iht _ _ ht]
    | _ => rfl
  case vec =>
    intro xs ys _ ih x x' hx
    cases hx with
    | vec hl => simpa only [Value.same] using sameAll_eq ih hl
    | _ => rfl
  case closure =>
    intro f f' b b' i j k l _ _ _ _ _ hs x x' hx
    cases hx with
    | closure _ _ _ hs' =>
      have := hc hs hs'
      simp only [Value.same]
      exact Bool.eq_iff_iff.2 (by simpa using this)
    | _ => rfl
  all_goals
    intros
    rename_i hx
    cases hx <;> rfl

/-- The allowance goes from item to item, and runs out at the same one on both sides. -/
theorem equalAll_agrees (h : List.Forall₂ (fun v v' => ∀ x x', Matches c x x' → ∀ left,
      Agrees Eq (v.equalWithin x left) (v'.equalWithin x' left)) xs xs')
    (hy : MatchesAll c ys ys') (left : Nat) :
    Agrees Eq (Value.equalAllWithin xs ys left) (Value.equalAllWithin xs' ys' left) := by
  induction h generalizing ys ys' left with
  | nil => cases hy <;> exact .self
  | cons h _ ih =>
    cases hy with
    | nil => exact .self
    | cons hx hy =>
      refine (h _ _ hx left).same fun r => ?_
      exact .ite Iff.rfl (ih hy r.2) .self

/-- Where plain equality decides. -/
theorem plainly_agrees (hc : c.Faithful) (h : Matches c v v') (hx : Matches c x x') (left : Nat) :
    Agrees Eq (do let left ← spend left; return (v.same x || (v.isNil && x.isNil), left))
      (do let left ← spend left; return (v'.same x' || (v'.isNil && x'.isNil), left)) :=
  Agrees.self.same fun left => .ok (by rw [h.same_eq hc _ _ hx, h.isNil_eq, hx.isNil_eq])

/-- Structural equality of matching values spends the same and answers alike. -/
theorem Matches.equalWithin (hc : c.Faithful) (h : Matches c v v') :
    ∀ x x', Matches c x x' → ∀ left,
      Agrees Eq (v.equalWithin x left) (v'.equalWithin x' left) := by
  refine h.induction_on ?nil ?str ?int ?float ?sym ?list ?dotted ?vec ?closure ?unknown
  case list =>
    intro xs xs' hxs ih x x' hx left
    have hplain := plainly_agrees hc (.list hxs) hx left
    rw [Value.equalWithin, Value.equalWithin]
    cases hx with
    | list hl =>
      refine Agrees.self.same fun left => ?_
      exact .ite (by rw [hxs.length_eq, hl.length_eq]) (equalAll_agrees ih hl left) .self
    | _ => exact hplain
  case dotted =>
    intro xs xs' x x' hxs ih hx iht y y' hy left
    have hplain := plainly_agrees hc (.dotted hxs hx) hy left
    rw [Value.equalWithin, Value.equalWithin]
    cases hy with
    | dotted hl ht =>
      refine Agrees.self.same fun left => Agrees.self.same fun left => ?_
      refine .ite (by rw [hxs.length_eq, hl.length_eq]) ?_ ?_
      · refine (equalAll_agrees ih hl left).same fun r => ?_
        exact .ite Iff.rfl (iht _ _ ht r.2) .self
      · exact .self
    | _ => exact hplain
  case vec =>
    intro xs xs' hxs ih x x' hx left
    have hplain := plainly_agrees hc (.vec hxs) hx left
    rw [Value.equalWithin, Value.equalWithin]
    cases hx <;> exact hplain
  case closure =>
    intro f f' b b' i j k l hf _ hb _ hi hs x x' hx left
    have hplain := plainly_agrees hc (.closure hf hb hi hs) hx left
    rw [Value.equalWithin, Value.equalWithin]
    cases hx <;> exact hplain
  case nil =>
    intro x x' hx left
    have hplain := plainly_agrees hc .nil hx left
    rw [Value.equalWithin, Value.equalWithin]
    cases hx <;> exact hplain
  case str | int | float | sym =>
    intro a x x' hx left
    rw [Value.equalWithin, Value.equalWithin]
    cases hx <;> exact .self
  case unknown =>
    intro x x' hx left
    rw [Value.equalWithin, Value.equalWithin]
    cases hx <;> exact .self

/-- A sameness that takes matching values alike. -/
def Primitive.Sameness.Agreeing (c : Labels) (test : Primitive.Sameness) : Prop :=
  ∀ v v', Matches c v v' → ∀ x x', Matches c x x' → Agrees Eq (test v x) (test v' x')

theorem equal_agreeing (hc : c.Faithful) : Primitive.Sameness.Agreeing c Value.equal :=
  fun _ _ hv _ _ hx => (hv.equalWithin hc _ _ hx _).map fun _ _ => congrArg Prod.fst

/-- Identity is unknown for the same pairs of values on both sides. -/
theorem eq_agreeing : Primitive.Sameness.Agreeing c Value.eq := by
  intro v v' hv x x' hx
  unfold Value.eq
  refine .ite (by rw [hv.isNil_eq, hx.isNil_eq]) .self ?_
  cases hv <;> cases hx <;> exact .self

theorem eql_agreeing : Primitive.Sameness.Agreeing c Primitive.eql := by
  intro v v' hv x x' hx
  have heq := eq_agreeing _ _ hv _ _ hx
  unfold Primitive.eql
  cases hv <;> cases hx <;> first | exact heq | exact .self

end Equal

namespace Primitive

section Lists

variable {args args' : List Value} {test : Sameness}

theorem respects_cons : cons.Respects c :=
  respects_binary fun _ _ hv _ _ hx => .ok (.prepend (.cons hv .nil) hx)

theorem unary_car : Unary c car :=
  fun _ _ h => h.car

theorem unary_cdr : Unary c cdr :=
  fun _ _ h => h.cdr

/-- Each step takes matching values to matching ones or fails alike. -/
theorem respects_path {steps : List (Value → Except Fault Value)}
    (h : ∀ step ∈ steps, Unary c step) : (path steps).Respects c := by
  refine respects_unary ?_
  induction steps with
  | nil => exact fun _ _ hv => .ok hv
  | cons step steps ih =>
    intro v v' hv
    simp only [List.foldrM_cons]
    refine (ih (fun s hs => h s (List.mem_cons_of_mem _ hs)) v v' hv).bind fun _ _ hx => ?_
    exact h step List.mem_cons_self _ _ hx

theorem respects_safely {step : Value → Except Fault Value} (h : Unary c step) :
    (safely step).Respects c :=
  respects_unary fun v v' hv => .ite (by rw [hv.isCons_eq]) (h v v' hv) (.ok .nil)

theorem drop_matches (h : MatchesAll c xs xs') (n : Nat) :
    MatchesAll c (xs.drop n) (xs'.drop n) :=
  List.forall₂_drop n h

/-- Steps go through lists of one length and then through matching ends. -/
theorem nthcdr_agrees (h : Matches c v v') :
    ∀ n, Agrees (Matches c) (nthcdr n v) (nthcdr n v') := by
  refine h.induction_on ?nil ?str ?int ?float ?sym ?list ?dotted ?vec ?closure ?unknown
  case nil => exact fun _ => .ok .nil
  case list =>
    intro xs xs' hxs _ n
    rw [nthcdr, nthcdr, hxs.length_eq]
    refine .ite Iff.rfl (.ok (.list hxs)) (.ite Iff.rfl .fault (.ok (.ofList ?_)))
    exact drop_matches hxs n
  case dotted =>
    intro xs xs' x x' hxs _ hx ih n
    rw [nthcdr, nthcdr, hxs.length_eq]
    exact .ite Iff.rfl (.ok (.dotted (drop_matches hxs n) hx)) (ih _)
  case vec =>
    intro xs xs' hxs _ n
    exact .ite Iff.rfl (.ok (.vec hxs)) (Matches.wrongType (.vec hxs) _)
  case closure =>
    intro f f' b b' i j k l hf _ hb _ hi hs n
    have hv := Matches.closure hf hb hi hs
    exact .ite Iff.rfl (.ok hv) (hv.wrongType _)
  case str =>
    intro a n
    exact .ite Iff.rfl (.ok (.str a)) .fault
  case int =>
    intro a n
    exact .ite Iff.rfl (.ok (.int a)) .fault
  case float =>
    intro a n
    exact .ite Iff.rfl (.ok (.float a)) .fault
  case sym =>
    intro a n
    exact .ite Iff.rfl (.ok (.sym a)) .fault
  case unknown => exact fun n => .ite Iff.rfl (.ok .unknown) .fault

theorem nth_agrees (n : Nat) (h : Matches c v v') : Agrees (Matches c) (nth n v) (nth n v') :=
  (nthcdr_agrees h n).bind fun _ _ hv => hv.car

/-- An index is within both sequences or outside of both. -/
theorem item_agrees (n : Int) (hv : Matches c v v') : Agrees (Matches c) (do
    let items ← v.asSequence
    match if n < 0 then none else items[n.toNat]? with
    | some v => return v
    | none => .error (.signal .outOfRange)) (do
    let items ← v'.asSequence
    match if n < 0 then none else items[n.toNat]? with
    | some v => return v
    | none => .error (.signal .outOfRange)) := by
  refine hv.asSequence.bind fun us us' hus => ?_
  have hget : Option.Rel (Matches c) (if n < 0 then none else us[n.toNat]?)
      (if n < 0 then none else us'[n.toNat]?) := by
    split
    · exact .none
    · exact hus.getElem? _
  revert hget
  generalize (if n < 0 then none else us[n.toNat]?) = found
  generalize (if n < 0 then none else us'[n.toNat]?) = found'
  rintro (h | _)
  · exact .ok h
  · exact .fault

/-- Matching indices are the same number. -/
theorem binary_element : Binary c element := by
  intro v v' hv x x' hx
  refine hx.asInt.same fun n => ?_
  cases hv with
  | nil => exact nth_agrees _ .nil
  | list h => exact nth_agrees _ (.list h)
  | dotted h ht => exact nth_agrees _ (.dotted h ht)
  | _ => exact item_agrees n (by constructor <;> assumption)

/-- Matching sequences have one length. -/
theorem unary_length : Unary c length := by
  intro v v' hv
  have hrest : Agrees (Matches c) (do return .int (← v.asSequence).length)
      (do return .int (← v'.asSequence).length) :=
    hv.asSequence.bind fun xs xs' hxs => .ok (hxs.length_eq ▸ .int _)
  cases hv with
  | dotted h ht => exact .fault
  | _ => exact hrest

theorem binary_last : Binary c last := by
  intro v v' hv x x' hx
  refine hv.asList.bind fun xs xs' hxs => (hx.asIntOr 1).same fun n => ?_
  refine .ite Iff.rfl (.ok .nil) ?_
  rw [hxs.length_eq]
  exact Matches.ofItems (drop_matches hxs _)

theorem binary_butLast : Binary c butLast := by
  intro v v' hv x x' hx
  refine hv.asList.bind fun xs xs' hxs => (hx.asIntOr 1).same fun n => ?_
  rw [hxs.length_eq]
  exact Matches.ofItems (List.forall₂_take _ hxs)

theorem binary_take : Binary c take := by
  intro v v' hv x x' hx
  refine hx.asList.bind fun xs xs' hxs => hv.asInt.same fun n => ?_
  exact Matches.ofItems (List.forall₂_take _ hxs)

theorem flatten_matches {xss xss' : List (List Value)}
    (h : List.Forall₂ (MatchesAll c) xss xss') : MatchesAll c xss.flatten xss'.flatten := by
  induction h with
  | nil => exact .nil
  | cons h _ ih => exact h.append ih

theorem getLast?_matches (h : MatchesAll c xs xs') :
    Option.Rel (Matches c) xs.getLast? xs'.getLast? := by
  rw [List.getLast?_eq_getElem?, List.getLast?_eq_getElem?, h.length_eq]
  exact h.getElem? _

/-- The items of all arguments but the last match, and so do their ends. -/
theorem respects_append : append.Respects c := by
  intro args args' ha
  unfold append
  have hlast := getLast?_matches ha
  revert hlast
  generalize args.getLast? = found
  generalize args'.getLast? = found'
  rintro (htail | _)
  · refine (Agrees.mapM ha.dropLast fun _ _ h => h.asSequence).bind fun xss xss' hxss => ?_
    have hitems := flatten_matches hxss
    cases htail with
    | nil => exact Matches.ofItems hitems
    | list h => exact Matches.ofItems (hitems.append h)
    | _ => exact .ok (.prepend hitems (by constructor <;> assumption))
  · exact .ok .nil

/-- Reversed lists match item by item. -/
theorem unary_reverse : Unary c reverse := by
  intro v v' hv
  cases hv with
  | str text => exact .ok (.ofChars _)
  | vec h => exact .ok (.vec (List.rel_reverse h))
  | _ =>
    refine (Matches.asList (c := c) (by constructor <;> assumption)).bind fun _ _ hxs => ?_
    exact Matches.ofItems (List.rel_reverse hxs)

theorem respects_same (h : test.Agreeing c) : (same test).Respects c :=
  respects_binary fun _ _ hv _ _ hx => (h _ _ hv _ _ hx).same fun _ => .ok (.ofBool _)

/-- A test that agrees on matching items keeps matching items. -/
theorem filterAuxM_agrees {p p' : Value → Except Fault Bool}
    (hp : ∀ v v', Matches c v v' → Agrees Eq (p v) (p' v')) (h : MatchesAll c xs xs')
    (hk : MatchesAll c ys ys') :
    Agrees (MatchesAll c) (List.filterAuxM p xs ys) (List.filterAuxM p' xs' ys') := by
  induction h generalizing ys ys' with
  | nil => exact .ok hk
  | cons hv _ ih =>
    refine (hp _ _ hv).same fun b => ?_
    cases b with
    | false => exact ih hk
    | true => exact ih (.cons hv hk)

theorem removeWhere_agrees {p p' : Value → Except Fault Bool}
    (hp : ∀ v v', Matches c v v' → Agrees Eq (p v) (p' v')) (h : MatchesAll c xs xs') :
    Agrees (MatchesAll c) (removeWhere p xs) (removeWhere p' xs') := by
  refine (filterAuxM_agrees (fun v v' hv => ?_) h .nil).bind fun _ _ hl =>
    .ok (List.rel_reverse hl)
  exact (hp v v' hv).same fun _ => .self

/-- The test of sameness is all that removing depends on. -/
theorem respects_remove (h : test.Agreeing c) : (remove test).Respects c := by
  refine respects_binary fun v v' hv x x' hx => hx.asList.bind fun xs xs' hxs => ?_
  refine (removeWhere_agrees (fun _ _ hu => h _ _ hu _ _ hv) hxs).bind fun _ _ hl => ?_
  exact Matches.ofItems hl

/-- The search stops at the same place, with the same allowance left. -/
theorem isAmong_agrees (hc : c.Faithful) (hv : Matches c v v') (h : MatchesAll c xs xs')
    (left : Nat) : Agrees Eq (isAmong v left xs) (isAmong v' left xs') := by
  induction h generalizing left with
  | nil => exact .self
  | cons hx _ ih =>
    refine (hv.equalWithin hc _ _ hx left).same fun r => ?_
    exact .ite Iff.rfl .self (ih _)

/-- The items kept so far match, so the next one is kept on both sides or on none. -/
theorem distinct_agrees (hc : c.Faithful) (h : MatchesAll c xs xs') (hk : MatchesAll c ys ys')
    (left : Nat) : Agrees (MatchesAll c) (distinct ys left xs) (distinct ys' left xs') := by
  induction h generalizing ys ys' left with
  | nil => exact .ok hk
  | cons hx _ ih =>
    refine (isAmong_agrees hc hx hk left).same fun r => ih ?_ _
    split
    · exact hk
    · exact hk.append (.cons hx .nil)

theorem unary_removeDuplicates (hc : c.Faithful) : Unary c removeDuplicates :=
  fun _ _ hv => hv.asList.bind fun _ _ hxs =>
    (distinct_agrees hc hxs .nil _).bind fun _ _ hl => Matches.ofItems hl

/-- Both find their first hit at one place. -/
theorem fromFirst_agrees {p p' : Value → Except Fault Bool}
    (hp : ∀ v v', Matches c v v' → Agrees Eq (p v) (p' v')) (h : MatchesAll c xs xs') :
    Agrees (MatchesAll c) (fromFirst p xs) (fromFirst p' xs') := by
  induction h with
  | nil => exact .ok .nil
  | cons hv hvs ih => exact (hp _ _ hv).same fun b => .ite Iff.rfl (.ok (.cons hv hvs)) ih

theorem respects_member (h : test.Agreeing c) : (member test).Respects c := by
  refine respects_binary fun v v' hv x x' hx => hx.asList.bind fun xs xs' hxs => ?_
  exact (fromFirst_agrees (fun _ _ hu => h _ _ hu _ _ hv) hxs).bind fun _ _ hl => Matches.ofItems hl

theorem filter_matches {p : Value → Bool} (hp : ∀ v v', Matches c v v' → p v = p v')
    (h : MatchesAll c xs xs') : MatchesAll c (xs.filter p) (xs'.filter p) := by
  induction h with
  | nil => exact .nil
  | cons hv _ ih =>
    rw [List.filter_cons, List.filter_cons, hp _ _ hv]
    split
    · exact .cons hv ih
    · exact ih

/-- A search through matching lists finds matching items or none. -/
theorem findM?_agrees {p p' : Value → Except Fault Bool}
    (hp : ∀ v v', Matches c v v' → Agrees Eq (p v) (p' v')) (h : MatchesAll c xs xs') :
    Agrees (Option.Rel (Matches c)) (xs.findM? p) (xs'.findM? p') := by
  induction h with
  | nil => exact .ok .none
  | cons hv _ ih =>
    refine (hp _ _ hv).same fun b => ?_
    cases b with
    | false => exact ih
    | true => exact .ok (.some hv)

/-- Entries are told by a part of them and a test, both of which agree. -/
theorem binary_findEntry {part : Value → Except Fault Value} (hpart : Unary c part)
    (h : test.Agreeing c) : Binary c (findEntry part test) := by
  intro v v' hv x x' hx
  refine hx.asList.bind fun xs xs' hxs => ?_
  have hcons := filter_matches (fun _ _ h => h.isCons_eq) hxs
  refine (findM?_agrees (fun u u' hu => ?_) hcons).bind fun _ _ ho => .ok (.getD ho .nil)
  exact (hpart u u' hu).bind fun _ _ hp => h _ _ hp _ _ hv

theorem ternary_assoc (hc : c.Faithful) : Ternary c assoc := fun v v' hv x x' hx y y' hy =>
  .ite (by rw [hy.isNil_eq]) .fault (binary_findEntry unary_car (equal_agreeing hc) v v' hv x x' hx)

/-- The default is used on both sides, or the rest of matching entries. -/
theorem respects_alistGet (hc : c.Faithful) : alistGet.Respects c := by
  refine respects_flexible fun args args' ha => ?_
  rcases ha with _ | ⟨hkey, _ | ⟨hlist, _ | ⟨hdefault, _ | ⟨hremove, _ | ⟨htest, _ | _⟩⟩⟩⟩⟩
  case cons.cons.cons.cons.cons.nil =>
    refine .ite (by rw [htest.isNil_eq]) ?_ ?_
    · refine (binary_findEntry unary_car eq_agreeing _ _ hkey _ _ hlist).bind fun _ _ he => ?_
      exact .ite (by rw [he.isNil_eq]) (.ok hdefault) he.cdr
    · refine (ternary_assoc hc _ _ hkey _ _ hlist _ _ htest).bind fun _ _ he => ?_
      exact .ite (by rw [he.isNil_eq]) (.ok hdefault) he.cdr
  all_goals exact .fault

/-- Property lists match two places at a time. -/
theorem fromProperty_agrees (hv : Matches c v v') : ∀ {xs xs' : List Value}, MatchesAll c xs xs' →
    Agrees (MatchesAll c) (fromProperty v xs) (fromProperty v' xs')
  | [], [], _ => .ok .nil
  | [_], [_], .cons hp .nil => (eq_agreeing _ _ hp _ _ hv).same fun b => by
    cases b
    · exact .ok .nil
    · exact .ok (.cons hp .nil)
  | _ :: _ :: _, _ :: _ :: _, .cons hp (.cons hx hrest) =>
    (eq_agreeing _ _ hp _ _ hv).same fun _ =>
      .ite Iff.rfl (.ok (.cons hp (.cons hx hrest))) (fromProperty_agrees hv hrest)

theorem propertyValue_agrees (hv : Matches c v v') : ∀ {xs xs' : List Value}, MatchesAll c xs xs' →
    Agrees (Matches c) (propertyValue v xs) (propertyValue v' xs')
  | [], [], _ => .ok .nil
  | [_], [_], .cons _ .nil => .ok .nil
  | _ :: _ :: _, _ :: _ :: _, .cons hp (.cons hx hrest) =>
    (eq_agreeing _ _ hp _ _ hv).same fun _ =>
      .ite Iff.rfl (.ok hx) (propertyValue_agrees hv hrest)

theorem ternary_plistGet : Ternary c plistGet := fun _ _ hv _ _ hx _ _ hy =>
  .ite (by rw [hy.isNil_eq]) .fault (hv.asList.bind fun _ _ hxs => propertyValue_agrees hx hxs)

theorem ternary_plistMember : Ternary c plistMember := fun _ _ hv _ _ hx _ _ hy =>
  .ite (by rw [hy.isNil_eq]) .fault (hv.asList.bind fun _ _ hxs =>
    (fromProperty_agrees hx hxs).bind fun _ _ hl => Matches.ofItems hl)

/-- Leaves found so far, and what is left of the budget. -/
def SameLeaves (c : Labels) (r r' : List Value × Nat) : Prop :=
  MatchesAll c r.1 r'.1 ∧ r.2 = r'.2

theorem leavesAllOnto_agrees (h : List.Forall₂ (fun v v' => ∀ out out', MatchesAll c out out' →
      ∀ left, Agrees (SameLeaves c) (leavesOnto out left v) (leavesOnto out' left v')) xs xs')
    {out out' : List Value} (ho : MatchesAll c out out') (left : Nat) :
    Agrees (SameLeaves c) (leavesAllOnto out left xs) (leavesAllOnto out' left xs') := by
  induction h generalizing out out' left with
  | nil => exact .ok ⟨ho, rfl⟩
  | cons h _ ih =>
    refine (h _ _ ho left).bind ?_
    rintro ⟨out, left⟩ ⟨out', _⟩ ⟨ho, rfl⟩
    exact ih ho left

/-- Flattening gathers matching leaves and spends the same. -/
theorem leavesOnto_agrees (h : Matches c v v') : ∀ out out', MatchesAll c out out' → ∀ left,
    Agrees (SameLeaves c) (leavesOnto out left v) (leavesOnto out' left v') := by
  refine h.induction_on ?nil ?str ?int ?float ?sym ?list ?dotted ?vec ?closure ?unknown
  case nil => exact fun out out' ho left => Agrees.self.same fun left => .ok ⟨ho, rfl⟩
  case list =>
    intro xs xs' _ ih out out' ho left
    exact Agrees.self.same fun left => leavesAllOnto_agrees ih ho left
  case dotted =>
    intro xs xs' x x' _ ih _ iht out out' ho left
    refine Agrees.self.same fun left => (leavesAllOnto_agrees ih ho left).bind ?_
    rintro ⟨out, left⟩ ⟨out', _⟩ ⟨ho, rfl⟩
    exact iht _ _ ho left
  case vec =>
    intro xs xs' hxs _ out out' ho left
    exact Agrees.self.same fun left => .ok ⟨.cons (.vec hxs) ho, rfl⟩
  case closure =>
    intro f f' b b' i j k l hf _ hb _ hi hs out out' ho left
    exact Agrees.self.same fun left => .ok ⟨.cons (.closure hf hb hi hs) ho, rfl⟩
  case str =>
    exact fun a out out' ho left => Agrees.self.same fun left => .ok ⟨.cons (.str a) ho, rfl⟩
  case int =>
    exact fun a out out' ho left => Agrees.self.same fun left => .ok ⟨.cons (.int a) ho, rfl⟩
  case float =>
    exact fun a out out' ho left => Agrees.self.same fun left => .ok ⟨.cons (.float a) ho, rfl⟩
  case sym =>
    exact fun a out out' ho left => Agrees.self.same fun left => .ok ⟨.cons (.sym a) ho, rfl⟩
  case unknown =>
    exact fun out out' ho left => Agrees.self.same fun left => .ok ⟨.cons .unknown ho, rfl⟩

theorem unary_flatten : Unary c flatten :=
  fun _ _ hv => (leavesOnto_agrees hv _ _ .nil _).bind fun _ _ h =>
    Matches.ofItems (List.rel_reverse h.1)

end Lists

section Sorting

theorem allHashable_eq (h : List.Forall₂ (fun v v' => v.isHashable = v'.isHashable) xs xs') :
    Value.allHashable xs = Value.allHashable xs' := by
  induction h with
  | nil => rfl
  | cons h _ ih => simp only [Value.allHashable, h, ih]

/-- Whether a value can be looked up depends on its shape alone. -/
theorem isHashable_eq (h : Matches c v v') : v.isHashable = v'.isHashable := by
  refine h.induction_on rfl (fun _ => rfl) (fun _ => rfl) (fun _ => rfl)
    (fun _ => rfl) ?list ?dotted ?vec
    ?closure rfl
  case list => exact fun _ _ => rfl
  case dotted => exact fun _ _ _ _ => rfl
  case vec => exact fun _ ih => allHashable_eq ih
  case closure => exact fun _ _ _ _ _ _ => rfl

/-- An order that takes matching values alike. -/
def SameOrder (c : Labels) (key key' : Value → Except Fault SortKey) : Prop :=
  ∀ v v', Matches c v v' → Agrees Eq (key v) (key' v')

/-- Names do not depend on labels, so they are compared alike. -/
theorem sameOrder_byName : SameOrder c SortKey.byName SortKey.byName :=
  fun _ _ hv => hv.asName.map fun _ _ => congrArg SortKey.name

theorem sameOrder_byNumber : SameOrder c SortKey.byNumber SortKey.byNumber :=
  fun _ _ hv => hv.asNumber.map fun _ _ => congrArg SortKey.number

/-- Matching orders are the same symbol, or complained of alike. -/
theorem ofOrder_agrees (h : Matches c v v') :
    Agrees (SameOrder c) (SortKey.ofOrder v) (SortKey.ofOrder v') := by
  have hrest : Agrees (SameOrder c)
      (if v.isHashable then .error (Fault.about v (.unsortable v)) else .error .unhashable)
      (if v'.isHashable then .error (Fault.about v' (.unsortable v')) else .error .unhashable) :=
    .ite (by rw [isHashable_eq h]) (.error (Fault.handling_about h _ _)) .fault
  cases h with
  | sym name =>
    unfold SortKey.ofOrder
    split
    · exact .ok sameOrder_byName
    · exact .ok sameOrder_byName
    · exact .ok sameOrder_byNumber
    · exact hrest
  | _ => exact hrest

theorem zip_eq_map (keys : List SortKey) (hl : xs.length = xs'.length) :
    keys.zip xs = (keys.zip (xs.zip xs')).map (fun t => (t.1, t.2.1)) ∧
      keys.zip xs' = (keys.zip (xs.zip xs')).map (fun t => (t.1, t.2.2)) := by
  induction keys generalizing xs xs' with
  | nil => exact ⟨rfl, rfl⟩
  | cons k keys ih =>
    cases xs with
    | nil =>
      obtain rfl := List.length_eq_zero_iff.1 hl.symm
      exact ⟨rfl, rfl⟩
    | cons x xs =>
      cases xs' with
      | nil => cases hl
      | cons x' xs' =>
        obtain ⟨h₁, h₂⟩ := ih (Nat.succ.inj hl)
        exact ⟨by simp [← h₁], by simp [← h₂]⟩

/-- Sorting looks at the keys alone, so that it moves matching items alike. -/
theorem sorted_agrees {key key' : Value → Except Fault SortKey} (hk : SameOrder c key key')
    (h : MatchesAll c xs xs') : Agrees (MatchesAll c) (sorted key xs) (sorted key' xs') := by
  refine (Agrees.mapM_same h hk).same fun keys => .ok ?_
  obtain ⟨h₁, h₂⟩ := zip_eq_map keys h.length_eq
  let later (a b : SortKey × Value × Value) : Bool := !b.1.lt a.1
  have left : ((keys.zip (xs.zip xs')).mergeSort later).map (fun t => (t.1, t.2.1)) =
      (keys.zip xs).mergeSort fun a b => !b.1.lt a.1 := by
    rw [h₁]
    exact List.map_mergeSort fun _ _ _ _ => rfl
  have right : ((keys.zip (xs.zip xs')).mergeSort later).map (fun t => (t.1, t.2.2)) =
      (keys.zip xs').mergeSort fun a b => !b.1.lt a.1 := by
    rw [h₂]
    exact List.map_mergeSort fun _ _ _ _ => rfl
  rw [← left, ← right, List.map_map, List.map_map, MatchesAll, List.forall₂_map_left_iff,
    List.forall₂_map_right_iff, List.forall₂_same]
  intro t ht
  have hmem := (List.of_mem_zip (List.mem_mergeSort.1 ht)).2
  exact (List.forall₂_iff_zip.1 h).2 hmem

theorem binary_sort : Binary c sort := by
  intro v v' hv x x' hx
  refine (ofOrder_agrees hx).bind fun key key' hk => ?_
  cases hv with
  | vec h => exact (sorted_agrees hk h).bind fun _ _ hl => .ok (.vec hl)
  | _ =>
    refine (Matches.asList (c := c) (by constructor <;> assumption)).bind fun _ _ hxs => ?_
    exact (sorted_agrees hk hxs).bind fun _ _ hl => Matches.ofItems hl

end Sorting

end Primitive

end PatternLint

/-! Every primitive takes matching arguments to matching values. -/

namespace PatternLint.Primitive

variable {c : Labels} {name : String} {f : Primitive}

theorem respects_arithmetic : ∀ entry ∈ arithmetic, entry.2.Respects c := by
  simp only [arithmetic, List.forall_mem_cons]
  refine ⟨respects_sum, respects_difference, respects_product, respects_quotient,
    respects_remainder, respects_modulo, respects_successor, respects_predecessor,
    respects_best _, respects_best _, respects_magnitude, respects_chain _, respects_chain _,
    respects_chain _, respects_chain _, respects_chain _, respects_differs, respects_isZero,
    respects_numberSequence, ?_⟩
  exact List.forall_mem_nil _

theorem respects_tests (hc : c.Faithful) : ∀ entry ∈ tests, entry.2.Respects c := by
  have htest : ∀ {p : Value → Bool}, (∀ v v', Matches c v v' → p v = p v') →
      (test p).Respects c := respects_test
  have hnil : (test Value.isNil).Respects c := htest fun _ _ h => h.isNil_eq
  have hinteger : (test isInteger).Respects c := htest fun _ _ h => by cases h <;> rfl
  simp only [tests, List.forall_mem_cons]
  refine ⟨hnil, hnil, htest ?_, htest ?_, htest ?_, htest ?_, htest ?_, htest ?_, htest ?_,
    hinteger, hinteger, htest ?_, htest ?_, htest ?_, htest ?_, respects_same eq_agreeing,
    respects_same eql_agreeing, respects_same (equal_agreeing hc), List.forall_mem_nil _⟩
  case refine_2 =>
    intro v v' h
    have := h.isNil_eq
    cases h <;> first | rfl | exact this
  case refine_4 => exact fun _ _ h => h.isCons_eq
  case refine_6 => exact fun _ _ h => congrArg (!·) h.isCons_eq
  all_goals
    intro v v' h
    cases h <;> rfl

theorem respects_sequences (hc : c.Faithful) : ∀ entry ∈ sequences, entry.2.Respects c := by
  have hsteps : ∀ step ∈ [car, cdr], Unary c step := by
    simp only [List.forall_mem_cons]
    exact ⟨unary_car, unary_cdr, List.forall_mem_nil _⟩
  have hpath : ∀ steps : List (Value → Except Fault Value), (∀ step ∈ steps, step ∈ [car, cdr]) →
      (path steps).Respects c := fun steps h => respects_path fun step hs => hsteps _ (h step hs)
  have hequal := equal_agreeing hc
  have hself : (leading fun v _ => .ok v).Respects c := respects_leading fun _ _ hv _ _ _ => .ok hv
  have hunique := respects_unary (unary_removeDuplicates hc)
  simp only [sequences, List.forall_mem_cons]
  refine ⟨fun _ _ h => Matches.ofItems h, respects_cons, respects_unary unary_car,
    respects_unary unary_cdr, respects_safely unary_car, respects_safely unary_cdr, hpath _ ?_,
    hpath _ ?_, hpath _ ?_, hpath _ ?_, hpath _ ?_, hpath _ ?_, hpath _ ?_, ?nthcdr, ?nth,
    respects_binary binary_element, respects_unary unary_length, respects_unary unary_length,
    respects_unaryOr binary_last, respects_unaryOr binary_butLast, respects_unaryOr binary_butLast,
    respects_binary binary_take, respects_binary binary_take, respects_append, respects_append,
    respects_unary unary_reverse, respects_unary unary_reverse, respects_remove hequal,
    respects_remove hequal, respects_remove eq_agreeing, respects_remove eq_agreeing, hunique,
    hunique, hunique, respects_member hequal, respects_member eq_agreeing,
    respects_member eq_agreeing, respects_binaryOr (ternary_assoc hc),
    respects_binary (binary_findEntry unary_car eq_agreeing),
    respects_binary (binary_findEntry unary_cdr hequal),
    respects_binary (binary_findEntry unary_cdr eq_agreeing), respects_alistGet hc,
    respects_binaryOr ternary_plistGet, respects_binaryOr ternary_plistMember,
    respects_unary unary_flatten, hself, hself, hself, hself, hself, fun _ _ h => .ok (.vec h),
    respects_binary binary_sort, respects_binary fun _ _ hv _ _ hx => binary_sort _ _ hx _ _ hv,
    List.forall_mem_nil _⟩
  case nthcdr =>
    exact respects_binary fun _ _ hv _ _ hx => hv.asInt.same fun n => nthcdr_agrees hx _
  case nth => exact respects_binary fun _ _ hv _ _ hx => hv.asInt.same fun n => nth_agrees _ hx
  all_goals simp

theorem respects_texts : ∀ entry ∈ texts, entry.2.Respects c := by
  have hcodes : (unary fun s => do Value.ofItems (Value.charCodes (← s.asString))).Respects c :=
    respects_unary fun _ _ hv => hv.asString.same fun _ => Matches.ofItems (Matches.charCodes _)
  simp only [texts, List.forall_mem_cons]
  refine ⟨respects_compareNames _, respects_compareNames _, respects_compareNames _,
    respects_compareNames _, respects_compareNames _, respects_compareNames _, respects_affix _,
    respects_affix _, respects_unary fun _ _ hv => hv.asChars.same fun _ => .ok (.ofBool _),
    respects_mapText _, respects_concat, respects_substring, respects_substring, respects_string,
    respects_unary unary_firstChar, respects_unary unary_charText, hcodes, hcodes,
    respects_unary fun _ _ hv => hv.asString.same fun _ => .ok (.vec (Matches.charCodes _)),
    respects_mapCase _, respects_mapCase _, respects_mapCase _, respects_unaryOr binary_joinTexts,
    respects_makeString, respects_ternary ternary_replaceText, respects_binaryOr ternary_searchText,
    respects_unary unary_numberText, respects_unaryOr binary_parseNumber,
    respects_unary unary_symbolName, respects_splitText, respects_trimBoth, respects_trimSide _,
    respects_trimSide _, respects_format, respects_format, List.forall_mem_nil _⟩

theorem respects_regexps : ∀ entry ∈ regexps, entry.2.Respects c := by
  simp only [regexps, List.forall_mem_cons]
  exact ⟨respects_mapText _, respects_unary unary_charset, respects_alternatives,
    respects_unary unary_groupDepth, respects_mapText _, List.forall_mem_nil _⟩

theorem respects_named (hc : c.Faithful) (h : named? name = some f) : f.Respects c := by
  have hall : ∀ entry ∈ all, entry.2.Respects c := by
    simp only [all, List.forall_mem_append]
    exact ⟨⟨⟨⟨respects_arithmetic, respects_tests hc⟩, respects_sequences hc⟩, respects_texts⟩,
      respects_regexps⟩
  exact hall _ (mem_of_named? h)

end PatternLint.Primitive
