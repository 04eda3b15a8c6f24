import PatternLint.Primitive.Number
import PatternLint.Proofs.Matching

/-! Computations on matching values. What they are taken for is the same, so that what is computed
from it matches again. -/

namespace PatternLint

/-- Serial numbers tell the same closures apart on both sides. -/
def Labels.Faithful (c : Labels) : Prop :=
  ∀ ⦃i i' j j'⦄, c.serials i i' → c.serials j j' → (i = j ↔ i' = j')

variable {α β : Type} {A : α → α → Prop} {B : β → β → Prop} {c : Labels}
  {v v' x x' : Value} {xs xs' : List Value}

namespace Agrees

variable {r r' : Except Fault α} {k k' : α → Except Fault β}

/-- Second steps agree from values that are related. -/
theorem bind (h : Agrees A r r') (hk : ∀ a a', A a a' → Agrees B (k a) (k' a')) :
    Agrees B (r >>= k) (r' >>= k') := by
  cases h with
  | ok h => exact hk _ _ h
  | error h => exact .error h

/-- What follows something that is the same on both sides. -/
theorem same (h : Agrees Eq r r') (hk : ∀ a, Agrees B (k a) (k' a)) :
    Agrees B (r >>= k) (r' >>= k') := by
  refine h.bind ?_
  rintro a _ rfl
  exact hk a

theorem map {f f' : α → β} (h : Agrees A r r') (hf : ∀ a a', A a a' → B (f a) (f' a')) :
    Agrees B (r.map f) (r'.map f') := by
  cases h with
  | ok h => exact .ok (hf _ _ h)
  | error h => exact .error h

/-- A computation agrees with itself if its values are related to themselves. -/
theorem refl (hA : ∀ a, A a a) (r : Except Fault α) : Agrees A r r := by
  cases r with
  | ok a => exact .ok (hA a)
  | error f => exact .error rfl

/-- Both sides take the same branch. -/
theorem ite {p q : Prop} [Decidable p] [Decidable q] {s s' : Except Fault α} (hp : p ↔ q)
    (h : Agrees A r r') (h' : Agrees A s s') :
    Agrees A (if p then r else s) (if q then r' else s') := by
  by_cases hq : q
  · rwa [if_pos hq, if_pos (hp.2 hq)]
  · rwa [if_neg hq, if_neg fun h => hq (hp.1 h)]

/-- The same steps, each on a value. -/
theorem mapM {f f' : Value → Except Fault β} (h : MatchesAll c xs xs')
    (hf : ∀ v v', Matches c v v' → Agrees B (f v) (f' v')) :
    Agrees (List.Forall₂ B) (xs.mapM f) (xs'.mapM f') := by
  induction h with
  | nil => exact .ok .nil
  | cons hv _ ih =>
    rw [List.mapM_cons, List.mapM_cons]
    refine (hf _ _ hv).bind fun b b' hb => ih.bind fun bs bs' hbs => ?_
    exact .ok (.cons hb hbs)

theorem mapM_same {f f' : Value → Except Fault β} (h : MatchesAll c xs xs')
    (hf : ∀ v v', Matches c v v' → Agrees Eq (f v) (f' v')) :
    Agrees Eq (xs.mapM f) (xs'.mapM f') := by
  have := mapM h hf
  rwa [List.forall₂_eq_eq_eq] at this

/-- Folds over matching lists agree if their steps do. -/
theorem foldlM {f f' : α → Value → Except Fault α} (h : MatchesAll c xs xs') {a a' : α}
    (ha : A a a') (hf : ∀ a a', A a a' → ∀ v v', Matches c v v' → Agrees A (f a v) (f' a' v')) :
    Agrees A (xs.foldlM f a) (xs'.foldlM f' a') := by
  induction h generalizing a a' with
  | nil => exact .ok ha
  | cons hv _ ih =>
    rw [List.foldlM_cons, List.foldlM_cons]
    exact (hf _ _ ha _ _ hv).bind fun _ _ ha => ih ha

end Agrees

namespace Matches

/-- Complaints about matching values are of one kind, whatever they show. -/
theorem wrongType (h : Matches c v v') (expected : String) {A : α → α → Prop} :
    Agrees A (.error (.wrongType expected v)) (.error (.wrongType expected v')) :=
  .error (Fault.handling_wrongType h expected)

theorem asString (h : Matches c v v') : Agrees Eq v.asString v'.asString := by
  cases h with
  | str text => exact .ok rfl
  | _ => exact wrongType (c := c) (by constructor <;> assumption) _

theorem asChars (h : Matches c v v') : Agrees Eq v.asChars v'.asChars :=
  h.asString.map fun _ _ => congrArg String.toList

theorem asInt (h : Matches c v v') : Agrees Eq v.asInt v'.asInt := by
  cases h with
  | int n => exact .ok rfl
  | _ => exact wrongType (c := c) (by constructor <;> assumption) _

theorem asIntOr (h : Matches c v v') (default : Int) :
    Agrees Eq (v.asIntOr default) (v'.asIntOr default) :=
  .ite (by rw [h.isNil_eq]) (.ok rfl) h.asInt

theorem asName (h : Matches c v v') : Agrees Eq v.asName v'.asName := by
  have hrest : Agrees Eq (if v.isNil then .ok "nil" else v.asString)
      (if v'.isNil then .ok "nil" else v'.asString) :=
    .ite (by rw [h.isNil_eq]) (.ok rfl) h.asString
  cases h with
  | sym name => exact .ok rfl
  | _ => simpa only [Value.asName] using hrest

/-- Numbers have no labels, so both sides read the same one. -/
theorem asNumber (h : Matches c v v') : Agrees Eq v.asNumber v'.asNumber := by
  cases h with
  | int n => exact .ok rfl
  | float x => exact .ok rfl
  | _ => exact wrongType (c := c) (by constructor <;> assumption) _

theorem ofChars (cs : List Char) : Matches c (.ofChars cs) (.ofChars cs) :=
  .str _

theorem ofInt (n : Int) : Agrees (Matches c) (Value.ofInt n) (Value.ofInt n) := by
  unfold Value.ofInt
  split
  · exact .error rfl
  · exact .ok (.int n)

/-- Codes of characters match themselves. -/
theorem charCodes (text : String) :
    MatchesAll c (Value.charCodes text) (Value.charCodes text) := by
  refine List.forall₂_same.mpr fun v hv => ?_
  obtain ⟨n, -, rfl⟩ := List.mem_map.1 hv
  exact .int _

end Matches

/-- What nothing else is compared with matches itself. -/
theorem Agrees.self {r : Except Fault α} : Agrees Eq r r :=
  .refl (fun _ => rfl) r

theorem Agrees.fault {f : Fault} : Agrees A (.error f) (.error f) :=
  .error rfl

namespace Primitive

variable {args args' : List Value}

def Unary (c : Labels) (f : Value → Except Fault Value) : Prop :=
  ∀ v v', Matches c v v' → Agrees (Matches c) (f v) (f v')

def Binary (c : Labels) (f : Value → Value → Except Fault Value) : Prop :=
  ∀ v v', Matches c v v' → ∀ x x', Matches c x x' → Agrees (Matches c) (f v x) (f v' x')

def Ternary (c : Labels) (f : Value → Value → Value → Except Fault Value) : Prop :=
  ∀ v v', Matches c v v' → ∀ x x', Matches c x x' → ∀ y y', Matches c y y' →
    Agrees (Matches c) (f v x y) (f v' x' y')

/-- A primitive of one argument respects matching if its operation does. -/
theorem respects_unary {f : Value → Except Fault Value} (h : Unary c f) :
    (unary f).Respects c := by
  intro args args' ha
  rcases ha with _ | ⟨hv, _ | _⟩
  · exact .fault
  · exact h _ _ hv
  · exact .fault

theorem respects_binary {f : Value → Value → Except Fault Value} (h : Binary c f) :
    (binary f).Respects c := by
  intro args args' ha
  rcases ha with _ | ⟨hv, _ | ⟨hx, _ | _⟩⟩
  · exact .fault
  · exact .fault
  · exact h _ _ hv _ _ hx
  · exact .fault

theorem respects_ternary {f : Value → Value → Value → Except Fault Value} (h : Ternary c f) :
    (ternary f).Respects c := by
  intro args args' ha
  rcases ha with _ | ⟨hv, _ | ⟨hx, _ | ⟨hy, _ | _⟩⟩⟩
  · exact .fault
  · exact .fault
  · exact .fault
  · exact h _ _ hv _ _ hx _ _ hy
  · exact .fault

/-- An argument left out is `nil` on both sides. -/
theorem respects_unaryOr {f : Value → Value → Except Fault Value} (h : Binary c f) :
    (unaryOr f).Respects c := by
  intro args args' ha
  rcases ha with _ | ⟨hv, _ | ⟨hx, _ | _⟩⟩
  · exact .fault
  · exact h _ _ hv _ _ .nil
  · exact h _ _ hv _ _ hx
  · exact .fault

theorem respects_binaryOr {f : Value → Value → Value → Except Fault Value} (h : Ternary c f) :
    (binaryOr f).Respects c := by
  intro args args' ha
  rcases ha with _ | ⟨hv, _ | ⟨hx, _ | ⟨hy, _ | _⟩⟩⟩
  · exact .fault
  · exact .fault
  · exact h _ _ hv _ _ hx _ _ .nil
  · exact h _ _ hv _ _ hx _ _ hy
  · exact .fault

/-- The rest of the arguments matches item by item. -/
theorem respects_leading {f : Value → List Value → Except Fault Value}
    (h : ∀ v v', Matches c v v' → ∀ xs xs', MatchesAll c xs xs' →
      Agrees (Matches c) (f v xs) (f v' xs')) : (leading f).Respects c := by
  intro args args' ha
  rcases ha with _ | ⟨hv, hxs⟩
  · exact .fault
  · exact h _ _ hv _ _ hxs

/-- Arguments are filled up to one length on both sides. -/
theorem respects_flexible {required optional : Nat} {f : Primitive} (h : f.Respects c) :
    (flexible required optional f).Respects c := by
  intro args args' ha
  have hlen : args.length = args'.length := ha.length_eq
  unfold flexible
  rw [hlen]
  refine .ite Iff.rfl .fault (h _ _ (ha.append ?_))
  exact List.forall₂_same.mpr fun v hv => by rw [List.eq_of_mem_replicate hv]; exact .nil

/-- A test that does not look at labels. -/
theorem respects_test {p : Value → Bool} (h : ∀ v v', Matches c v v' → p v = p v') :
    (test p).Respects c :=
  respects_unary fun v v' hv => .ok (h v v' hv ▸ .ofBool _)

end Primitive

end PatternLint

/-! Arithmetic on matching values. -/

namespace PatternLint.Primitive

variable {c : Labels} {args args' : List Value}

theorem checked_agrees (n : Number) : Agrees (Matches c) n.checked n.checked := by
  cases n with
  | int n => exact Matches.ofInt n
  | float x => exact .ok (.float x)

/-- Numbers as values match themselves. -/
theorem toValue_matches (n : Number) : Matches c n.toValue n.toValue := by
  cases n with
  | int n => exact .int n
  | float x => exact .float x

/-- Matching arguments are the same numbers, or one of them is none. -/
theorem numbers_agree (ha : MatchesAll c args args') : Agrees Eq (numbers args) (numbers args') :=
  .mapM_same ha fun _ _ h => h.asNumber

theorem respects_sum : sum.Respects c := by
  intro args args' ha
  refine Agrees.same (.foldlM ha rfl ?_) checked_agrees
  rintro n _ rfl v v' hv
  exact hv.asNumber.same fun _ => .self

theorem respects_difference : difference.Respects c := by
  intro args args' ha
  refine (numbers_agree ha).same fun ns => ?_
  rcases ns with _ | ⟨a, _ | ⟨b, ns⟩⟩
  · exact .ok (.int 0)
  · exact .ok (toValue_matches _)
  · exact Agrees.self.same checked_agrees

/-- Partial products are the same, so they overflow at the same factor. -/
theorem respects_product : product.Respects c := by
  intro args args' ha
  refine .foldlM ha (.int 1) fun total total' ht v v' hv => ?_
  refine hv.asNumber.same fun b => ht.asNumber.same fun a => ?_
  exact Agrees.self.same checked_agrees

theorem respects_quotient : quotient.Respects c := by
  refine respects_leading fun v v' hv xs xs' hxs => hv.asNumber.same fun a => ?_
  refine Agrees.same (.foldlM hxs rfl ?_) fun n => .ok (toValue_matches n)
  rintro n _ rfl x x' hx
  exact hx.asNumber.same fun _ => .self

/-- Both divide the same integers. -/
theorem respects_remainder : remainder.Respects c := by
  refine respects_binary fun v v' hv x x' hx => hv.asInt.same fun m => hx.asInt.same fun n => ?_
  refine Agrees.self.same fun m => Agrees.self.same fun n => ?_
  exact .ite Iff.rfl .fault (.ok (.int _))

theorem respects_modulo : modulo.Respects c := by
  refine respects_binary fun v v' hv x x' hx =>
    hv.asNumber.same fun m => hx.asNumber.same fun n => ?_
  exact Agrees.self.same fun n => .ok (toValue_matches n)

theorem respects_successor : successor.Respects c :=
  respects_unary fun _ _ hv => hv.asNumber.same fun _ => Agrees.self.same checked_agrees

theorem respects_predecessor : predecessor.Respects c :=
  respects_unary fun _ _ hv => hv.asNumber.same fun _ => Agrees.self.same checked_agrees

/-- The best of the same numbers is the same. -/
theorem respects_best (better : Number → Number → Bool) : (best better).Respects c := by
  refine respects_leading fun v v' hv xs xs' hxs => hv.asNumber.same fun a => ?_
  refine Agrees.same (.foldlM hxs rfl ?_) fun n => .ok (toValue_matches n)
  rintro n _ rfl x x' hx
  exact hx.asNumber.same fun _ => .self

theorem respects_magnitude : magnitude.Respects c :=
  respects_unary fun _ _ hv => hv.asNumber.same fun _ => .ok (toValue_matches _)

theorem respects_chain (accepted : List Ordering) : (chain accepted).Respects c :=
  respects_leading fun _ _ hv _ _ hxs => (numbers_agree (.cons hv hxs)).same fun _ =>
    .ok (.ofBool _)

theorem respects_differs : differs.Respects c :=
  respects_binary fun _ _ hv _ _ hx => hv.asNumber.same fun _ => hx.asNumber.same fun _ =>
    .ok (.ofBool _)

theorem respects_isZero : isZero.Respects c :=
  respects_unary fun _ _ hv => hv.asNumber.same fun _ => .ok (.ofBool _)

/-- The elements of a progression are numbers. -/
theorem sequence_agrees (start step : Number) (is : List Nat) :
    Agrees (MatchesAll c) (is.mapM (sequenceItem start step))
      (is.mapM (sequenceItem start step)) := by
  induction is with
  | nil => exact .ok .nil
  | cons i is ih =>
    rw [List.mapM_cons]
    have hitem : Agrees (Matches c) (sequenceItem start step i) (sequenceItem start step i) :=
      Agrees.self.same fun _ => Agrees.self.same fun n => .ok (toValue_matches n)
    exact hitem.bind fun _ _ hv => ih.bind fun _ _ hvs => .ok (.cons hv hvs)

theorem respects_numberSequence : numberSequence.Respects c := by
  refine respects_flexible fun args args' ha => ?_
  rcases ha with _ | ⟨hstart, _ | ⟨hfinish, _ | ⟨hstep, _ | _⟩⟩⟩
  · exact .fault
  · exact .fault
  · exact .fault
  · refine hstart.asNumber.same fun start => ?_
    refine .ite (by rw [hfinish.isNil_eq]) (.ok (.list (.cons (toValue_matches _) .nil))) ?_
    refine hfinish.asNumber.same fun finish => ?_
    refine .ite (by rw [hstep.isNil_eq]) (Agrees.self.same fun step => ?_)
      (hstep.asNumber.same fun step => ?_)
    all_goals
      refine .ite Iff.rfl .fault ?_
      refine Agrees.self.same fun _ => Agrees.self.same fun _ => Agrees.self.same fun _ => ?_
      refine .ite Iff.rfl .fault
        ((sequence_agrees start _ _).bind fun _ _ hvs => Matches.ofItems hvs)
  · exact .fault

end PatternLint.Primitive
