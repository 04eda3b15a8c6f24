import PatternLint.Proofs.Canonical
import PatternLint.Proofs.KnownResults
import PatternLint.Proofs.StrictRuns

/-! What templates are short for: calls that put lists together from quoted atoms and from the parts
that are evaluated. -/

namespace PatternLint

open Evaluation

/-- The form `(quote V)`. -/
def quoted (v : Value) : Value :=
  .list [.sym "quote", v]

/-- The form `(cons A B)`. -/
def consOf (a b : Value) : Value :=
  .list [.sym "cons", a, b]

/-- The form `(append A B)`. -/
def appendOf (a b : Value) : Value :=
  .list [.sym "append", a, b]

mutual
/-- The calls that a template is short for, if it has no vectors and its marks are where they have a
meaning. -/
def constructors? : Value → Option Value
  | .list items => itemConstructors? none items
  | .dotted items tail => do itemConstructors? (some (← constructors? tail)) items
  | .vec _ => none
  | unquoteMark => none
  | spliceMark => none
  | v => some (quoted v)
/-- The same for the items of a list, which ends in `nil` if it has no other ending. -/
def itemConstructors? (ending : Option Value) : List Value → Option Value
  | [] => some (ending.getD (quoted .nil))
  | [unquoteMark, form] => if ending.isNone then some form else none
  | .list [spliceMark, form] :: rest => do return appendOf form (← itemConstructors? ending rest)
  | item :: rest => do return consOf (← constructors? item) (← itemConstructors? ending rest)
end

namespace Value

theorem prepend_ofList (xs ys : List Value) : prepend xs (ofList ys) = ofList (xs ++ ys) := by
  cases ys with
  | nil => rw [List.append_nil]; rfl
  | cons => rfl

/-- Items in front of items in front of a tail. -/
theorem prepend_prepend (xs ys : List Value) (tail : Value) :
    prepend xs (prepend ys tail) = prepend (xs ++ ys) tail := by
  fun_cases prepend ys tail with
  | case1 => exact prepend_ofList xs ys
  | case2 more => rw [prepend_ofList, ← List.append_assoc]; rfl
  | case3 more tail h => rw [prepend_ofList, prepend, if_pos h, List.append_assoc]
  | case4 more tail h => rw [prepend, prepend, if_neg h, if_neg h, List.append_assoc]
  | case5 _ _ _ _ h => rw [List.isEmpty_iff.1 h, List.append_nil]
  | case6 _ hnil hlist hdotted h =>
    have hatom : tail.isNil = false := by
      cases tail with
      | nil => exact (hnil rfl).elim
      | list items => exact (hlist items rfl).elim
      | _ => rfl
    rw [prepend, if_neg (by simp [hatom]), prepend.eq_4 _ _ hnil hlist hdotted,
      if_neg (by simpa using fun _ => h)]

theorem prepend_canonical {v : Value} (h : v.MadeOf .canonical) : prepend [] v = v := by
  cases h with
  | @list items _ hne =>
    cases items with
    | nil => exact absurd rfl (hne True.intro)
    | cons => rfl
  | @dotted items tail _ _ hp =>
    have htail : tail.isNil = false := by
      have ht := (hp True.intro).2
      cases tail <;> first | rfl | exact ht.elim
    rw [prepend, if_neg (by simp [htail]), List.nil_append]
  | _ => rfl

end Value

variable {N : Nat} {env : FrameId} {scope : Scope} {s t : Store} {v : Value}

/-- Evaluation keeps to canonical data. -/
theorem evalBy_canonical {fault : Fault} {depth : Nat} {expr : Value}
    (hdefs : scope.defs.MadeOf .canonical) (hexpr : expr.MadeOf .canonical)
    (hs : s.MadeOf .canonical)
    (h : evalBy { Policy.plain with tooDeep := fault } depth expr env scope s = (.ok v, t)) :
    v.MadeOf .canonical ∧ t.MadeOf .canonical := by
  have hev := steady_evalBy fault hdefs (binds_plain (m := .canonical) True.intro) depth Set.univ
    scope.expanding expr env scope hexpr ⟨rfl, rfl⟩
  obtain ⟨ht, hv⟩ := hev.run hs.within
  change (evalBy { Policy.plain with tooDeep := fault } depth expr env scope s).2.Within _ _ at ht
  change Returns _ (evalBy { Policy.plain with tooDeep := fault } depth expr env scope s).1 at hv
  rw [h] at ht hv
  exact ⟨(hv v rfl).madeOf_of_unknown True.intro, ht.toMadeOf⟩

/-- Appending to a list puts its items in front. -/
theorem append_pair {x y w : Value} {more : List Value} (hx : x.asList = .ok more)
    (hw : Primitive.append [x, y] = .ok w) : w = Value.prepend more y := by
  have hseq : x.asSequence = .ok more := by
    cases x <;> first | exact hx | cases hx
  have hitems : ∀ {items}, Value.ofItems items = .ok w → w = Value.ofList items :=
    fun h => (Value.ofItems_ok h).2
  rw [Primitive.append] at hw
  simp only [List.getLast?_cons_cons, List.getLast?_singleton, List.dropLast_cons_cons,
    List.dropLast_singleton, List.mapM_cons, List.mapM_nil, hseq, bind, Except.bind, pure,
    Except.pure, List.flatten_cons, List.flatten_nil, List.append_nil] at hw
  split at hw
  · exact hitems hw
  · exact hitems hw
  · cases hw
    rfl

section Forms

variable {n : Nat} {a b w : Value}

theorem quoted_eq_ok (h : evalBy .strict n (quoted a) env scope s = (.ok w, t))
    (hw : w ≠ .unknown) : w = a ∧ t = s := by
  cases n with
  | zero => cases h
  | succ n =>
    rw [evalBy_constant
      (rfl : (quoted a).constant? = some (if isUnquote a then .unknown else a))] at h
    split at h <;> cases h
    · exact (hw rfl).elim
    · exact ⟨rfl, rfl⟩

/-- A call with two operands, all of whose values are known. -/
theorem binaryCall_eq_ok {name : String} {f : Primitive} (hform : SpecialForm.named? name = none)
    (hname : scope.defs.Lacks name) (hf : Primitive.named? name = some f)
    (h : evalBy .strict n (.list [.sym name, a, b]) env scope s = (.ok w, t)) (hw : w ≠ .unknown) :
    ∃ m x u y, m ≤ n ∧ evalBy .strict m a env scope s = (.ok x, u) ∧ x ≠ .unknown ∧
      evalBy .strict m b env scope u = (.ok y, t) ∧ y ≠ .unknown ∧ f [x, y] = .ok w := by
  cases n with
  | zero => cases h
  | succ n =>
    obtain ⟨values, hvalues, hknown, hfw⟩ := primitiveCall_eq_ok hform hname hf h hw
    obtain ⟨x, ys, u, rfl, hx, hys⟩ := operands_cons_eq_ok hvalues
    obtain ⟨y, hy, rfl⟩ := Evaluator.operands_single.1 hys
    have known : ∀ {z}, z ∈ [x, y] → z ≠ .unknown := by
      rintro _ hz rfl
      cases hknown _ hz
    exact ⟨n, x, u, y, Nat.le_succ n, hx, known (by simp), hy, known (by simp), hfw⟩

end Forms

section Canonical

variable {q : Value}

end Canonical

/-- Wherever `m` and the form `q` both have a known value, `m` gives that of `q` behind the items
`out`, and leaves the same store. -/
def Builds (N : Nat) (env : FrameId) (scope : Scope) (q : Value) (out : List Value)
    (m : Eval Value) : Prop :=
  ∀ ⦃n s v t w t'⦄, n ≤ N → s.MadeOf .canonical → m s = (.ok v, t) → v ≠ .unknown →
    evalBy .strict n q env scope s = (.ok w, t') → w ≠ .unknown → v = Value.prepend out w ∧ t = t'

/-- What becomes of the list of items, when they are all there: `nil` or the
ending is put behind them. -/
structure Ends (N : Nat) (env : FrameId) (scope : Scope) (ending : Option Value)
    (finish : Value → Eval Value) : Prop where
  builds : ∀ out, Builds N env scope (ending.getD (quoted .nil)) out (finish (Value.ofList out))
  canonical : ∀ e ∈ ending, Value.MadeOf .canonical e
  lost : ∀ ⦃s v t⦄, finish .unknown s = (.ok v, t) → v = .unknown
  «open» : ending = none → finish = pure

namespace Builds

variable {q q' : Value} {out : List Value} {m : Eval Value} {k finish : Value → Eval Value}

theorem quoted (h : v.MadeOf .canonical) : Builds N env scope (quoted v) [] (pure v) := by
  intro n s x t w t' _ _ hx _ hw hw'
  obtain ⟨rfl, rfl⟩ := quoted_eq_ok hw hw'
  obtain ⟨rfl, rfl⟩ := Eval.pure_eq_ok hx
  exact ⟨(Value.prepend_canonical h).symm, rfl⟩

section Calls

variable (hdefs : scope.defs.MadeOf .canonical)
include hdefs

/-- An item and what is behind it. -/
theorem cons (hcons : scope.defs.Lacks "cons") (hq : q.MadeOf .canonical)
    (h : Builds N env scope q [] m) (hk : ∀ x, Builds N env scope q' (out ++ [x]) (k x >>= finish))
    (hlost : ∀ ⦃s v t⦄, finish .unknown s = (.ok v, t) → v = .unknown) :
    Builds N env scope (consOf q q') out
      ((m >>= fun x => if x.isUnknown then return .unknown else k x) >>= finish) := by
  intro n s v t w t' hn hs hrun hv hw hw'
  obtain ⟨r, u₁, hr, hfinish⟩ := Eval.bind_eq_ok hrun
  obtain ⟨x, u, hx, hkx⟩ := Eval.bind_eq_ok hr
  obtain ⟨d, x', u', y, hd, hx', hxk, hy, hyk, hfw⟩ := binaryCall_eq_ok rfl hcons rfl hw hw'
  cases hxu : x.isUnknown with
  | true =>
    rw [hxu] at hkx
    obtain ⟨rfl, rfl⟩ := Eval.pure_eq_ok hkx
    exact (hv (hlost hfinish)).elim
  | false =>
    rw [hxu] at hkx
    have hxv : x ≠ .unknown := by
      rintro rfl
      cases hxu
    obtain ⟨rfl, rfl⟩ := h (Nat.le_trans hd hn) hs hx hxv hx' hxk
    obtain ⟨hcanonical, hu⟩ := evalBy_canonical hdefs hq hs hx'
    rw [Value.prepend_canonical hcanonical] at hkx
    have hrest : (k x' >>= finish) u = (.ok v, t) :=
      Eval.bind_eq_ok_iff.2 ⟨r, u₁, hkx, hfinish⟩
    obtain ⟨rfl, rfl⟩ := hk x' (Nat.le_trans hd hn) hu hrest hv hy hyk
    cases hfw
    exact ⟨(Value.prepend_prepend out [x'] y).symm, rfl⟩

/-- The items of a spliced list and what is behind them. -/
theorem splice (happend : scope.defs.Lacks "append") {form : Value} {j : List Value → Eval Value}
    (hform : form.MadeOf .canonical)
    (hj : ∀ more, Builds N env scope q (out ++ more) (j more >>= finish))
    (hlost : ∀ ⦃s v t⦄, finish .unknown s = (.ok v, t) → v = .unknown) :
    Builds N env scope (appendOf form q) out
      ((evalBy .strict N form env scope >>= fun v =>
        if v.isUnknown then return .unknown else Eval.withResult v.asList j) >>= finish) := by
  intro n s v t w t' hn hs hrun hv hw hw'
  obtain ⟨r, u₁, hr, hfinish⟩ := Eval.bind_eq_ok hrun
  obtain ⟨x, u, hx, hjx⟩ := Eval.bind_eq_ok hr
  obtain ⟨d, x', u', y, hd, hx', -, hy, hyk, hfw⟩ := binaryCall_eq_ok rfl happend rfl hw hw'
  have hgiven : r ≠ .unknown := by
    rintro rfl
    exact hv (hlost hfinish)
  -- the same form is evaluated at two depths
  cases hx.symm.trans (strict_deeper hx' (Nat.le_trans hd hn) Policy.refusal)
  obtain ⟨-, hu⟩ := evalBy_canonical hdefs hform hs hx
  cases hxu : x.isUnknown with
  | true =>
    rw [hxu] at hjx
    exact (hgiven (Eval.pure_eq_ok hjx).1.symm).elim
  | false =>
    rw [hxu] at hjx
    cases hmore : x.asList with
    | error f =>
      simp only [hmore, Bool.false_eq_true, if_false, Eval.withResult_error] at hjx
      split at hjx
      · exact (hgiven (Eval.pure_eq_ok hjx).1.symm).elim
      · cases hjx
    | ok more =>
      simp only [hmore, Bool.false_eq_true, if_false] at hjx
      have hrest : (j more >>= finish) u = (.ok v, t) :=
        Eval.bind_eq_ok_iff.2 ⟨r, u₁, hjx, hfinish⟩
      obtain ⟨rfl, rfl⟩ := hj more (Nat.le_trans hd hn) hu hrest hv hy hyk
      rw [append_pair hmore hfw]
      exact ⟨(Value.prepend_prepend out more y).symm, rfl⟩

end Calls

end Builds

namespace Ends

theorem proper : Ends N env scope none pure where
  builds out := by
    intro n s v t w t' _ _ hv _ hw hw'
    obtain ⟨rfl, rfl⟩ := quoted_eq_ok hw hw'
    obtain ⟨rfl, rfl⟩ := Eval.pure_eq_ok hv
    exact ⟨rfl, rfl⟩
  canonical := nofun
  lost _ _ _ h := (Eval.pure_eq_ok h).1.symm
  «open» _ := rfl

theorem dotted {tail q : Value} (hq : q.MadeOf .canonical)
    (h : Builds N env scope q [] (expand (evalBy .strict N) env scope tail)) :
    Ends N env scope (some q) fun head => do
      let rest ← expand (evalBy .strict N) env scope tail
      if head.isUnknown || rest.isUnknown then return .unknown
      else return Value.prepend (← Eval.ofExcept head.asList) rest where
  builds out := by
    intro n s v t w t' hn hs hrun hv hw hw'
    obtain ⟨rest, u, hrest, hret⟩ := Eval.bind_eq_ok hrun
    cases hu : rest.isUnknown with
    | true =>
      rw [hu, Bool.or_true] at hret
      exact (hv (Eval.pure_eq_ok hret).1.symm).elim
    | false =>
      have hknown : rest ≠ .unknown := by
        rintro rfl
        cases hu
      obtain ⟨rfl, rfl⟩ := h hn hs hrest hknown hw hw'
      have hhead : (Value.ofList out).isUnknown = false := by
        cases out <;> rfl
      rw [hu, hhead] at hret
      obtain ⟨items, _, hitems, hret⟩ := Eval.bind_eq_ok hret
      rw [Eval.ofExcept, Value.asList_ofList] at hitems
      cases hitems
      obtain ⟨rfl, rfl⟩ := Eval.pure_eq_ok hret
      rw [Value.prepend_prepend, List.append_nil]
      exact ⟨rfl, rfl⟩
  canonical := by
    rintro _ ⟨⟩
    exact hq
  lost s v t hrun := by
    obtain ⟨rest, u, -, hret⟩ := Eval.bind_eq_ok hrun
    exact (Eval.pure_eq_ok hret).1.symm
  «open» := nofun

end Ends

section Template

variable (hdefs : scope.defs.MadeOf .canonical) (hcons : scope.defs.Lacks "cons")
  (happend : scope.defs.Lacks "append")
include hdefs hcons happend

end Template

end PatternLint
