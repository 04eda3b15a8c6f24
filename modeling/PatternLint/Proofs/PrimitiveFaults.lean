import PatternLint.Primitive.Table
import PatternLint.Proofs.Endings

/-! The faults of primitives. Those of structured regexps are not among them. -/

namespace PatternLint

variable {α β : Type} {F : Fault → Prop}

/-- Fails, if at all, with a fault of `F`. -/
def FailsIn (F : Fault → Prop) (r : Except Fault α) : Prop :=
  EndsIn (fun _ => True) F r

/-- The faults of turning codes into characters and of writing numerals. -/
class CoversText (F : Fault → Prop) : Prop where
  wideResult : F (.numeral .wideResult)
  notCharacter : F .notCharacter
  wideCharacter : F .wideCharacter

/-- The faults that operations common to primitives and forms may end in. -/
class Covers (F : Fault → Prop) : Prop extends CoversText F where
  signal : ∀ s, F (.signal s)

namespace FailsIn

variable {r : Except Fault α} {k : α → Except Fault β} {f : Fault}

@[simp] theorem ok {a : α} : FailsIn F (.ok a) :=
  True.intro

@[simp] theorem ret {a : α} : FailsIn F (pure a : Except Fault α) :=
  True.intro

/-- A computation in two steps fails as its first step does, or as its second after a value of the
first. -/
@[simp] theorem bind_iff : FailsIn F (r >>= k) ↔ FailsIn F r ∧ ∀ a, r = .ok a →
      FailsIn F (k a) := by
  cases r with
  | ok a => exact ⟨fun h => ⟨ok, by rintro _ ⟨⟩; exact h⟩, fun h => h.2 a rfl⟩
  | error f => exact ⟨fun h => ⟨h, nofun⟩, And.left⟩

theorem bind (h : FailsIn F r) (hk : ∀ a, FailsIn F (k a)) : FailsIn F (r >>= k) :=
  bind_iff.2 ⟨h, fun a _ => hk a⟩

/-- What is known of the first value helps to bound the faults of the second step. -/
theorem after {A : α → Prop} (h : EndsIn A F r) (hk : ∀ a, A a → FailsIn F (k a)) :
    FailsIn F (r >>= k) :=
  EndsIn.bind h hk

theorem ite {p : Prop} [Decidable p] {r' : Except Fault α} (h : p → FailsIn F r)
    (h' : ¬p → FailsIn F r') : FailsIn F (if p then r else r') := by
  split
  · exact h ‹_›
  · exact h' ‹_›

/-- What follows a value or another computation. -/
theorem either {p : Prop} [Decidable p] {a : α} (h : FailsIn F r) (hk : ∀ a, FailsIn F (k a)) :
    FailsIn F (if p then pure a >>= k else r >>= k) :=
  ite (fun _ => bind ret hk) fun _ => bind h hk

@[simp] theorem map_iff {g : α → β} : FailsIn F (g <$> r) ↔ FailsIn F r := by
  cases r <;> rfl

@[simp] theorem map'_iff {g : α → β} : FailsIn F (r.map g) ↔ FailsIn F r := by
  cases r <;> rfl

@[simp] theorem ite_iff {p : Prop} [Decidable p] {r' : Except Fault α} :
    FailsIn F (if p then r else r') ↔ (p → FailsIn F r) ∧ (¬p → FailsIn F r') := by
  split <;> simp_all

/-- Going through a list adds no faults to those of the single step. -/
@[simp] theorem mapM {g : α → Except Fault β} {xs : List α} (h : ∀ x, FailsIn F (g x)) :
    FailsIn F (xs.mapM g) := by
  induction xs with
  | nil => exact ok
  | cons x xs ih =>
    rw [List.mapM_cons]
    exact bind (h x) fun _ => bind ih fun _ => ret

@[simp] theorem filterM {g : α → Except Fault Bool} {xs : List α} (h : ∀ x, FailsIn F (g x)) :
    FailsIn F (xs.filterM g) := by
  have haux : ∀ kept, FailsIn F (xs.filterAuxM g kept) := by
    induction xs with
    | nil => exact fun _ => ok
    | cons x xs ih => exact fun kept => bind (h x) fun b => ih _
  exact bind (haux []) fun _ => ret

@[simp] theorem findM? {g : α → Except Fault Bool} {xs : List α} (h : ∀ x, FailsIn F (g x)) :
    FailsIn F (xs.findM? g) := by
  induction xs with
  | nil => exact ok
  | cons x xs ih =>
    refine bind (h x) fun b => ?_
    cases b
    · exact ih
    · exact ok

@[simp] theorem foldlM {g : β → α → Except Fault β} {xs : List α} {b : β}
    (h : ∀ b x, FailsIn F (g b x)) : FailsIn F (xs.foldlM g b) := by
  induction xs generalizing b with
  | nil => exact ok
  | cons x xs ih =>
    rw [List.foldlM_cons]
    exact bind (h b x) fun _ => ih

end FailsIn

section Characters

variable [CoversText F]

/-- A number with too many digits to be written. -/
@[simp] theorem FailsIn.wideResult : FailsIn F (.error (.numeral .wideResult) : Except Fault α) :=
  CoversText.wideResult

/-- A code that is no character. -/
@[simp] theorem FailsIn.notCharacter : FailsIn F (.error .notCharacter : Except Fault α) :=
  CoversText.notCharacter

/-- A code beyond what a machine word holds. -/
@[simp] theorem FailsIn.wideCharacter : FailsIn F (.error .wideCharacter : Except Fault α) :=
  CoversText.wideCharacter

namespace Pattern

@[simp] theorem charOf_failsIn {code : Int} : FailsIn F (charOf code) := by
  simp [charOf]

@[simp] theorem runText_failsIn {run : Int × Int} : FailsIn F (runText run) := by
  simp [runText]

/-- Codes alone can make a character set fail; how its runs are written cannot. -/
@[simp] theorem charset_failsIn {codes : List Int} : FailsIn F (charset codes) := by
  unfold charset
  split <;> simp [charsOf]

/-- The tree of alternatives is built from texts whose characters exist already; only writing a set
can fail. -/
@[simp] theorem alternatives_failsIn {texts : List (List Char)} {grouping : Grouping}
    {keepOrder : Bool} : FailsIn F (alternatives texts grouping keepOrder) := by
  simp [alternatives]

end Pattern

end Characters

section Common

variable [Covers F] {v : Value}

namespace FailsIn

@[simp] theorem signal {s : Signal} : FailsIn F (.error (.signal s) : Except Fault α) :=
  Covers.signal s

/-- A complaint about a value shows the value, and fails in turn when it cannot be shown. -/
@[simp] theorem about {s : Signal} : FailsIn F (.error (.about v s) : Except Fault α) := by
  unfold Fault.about
  split
  · exact Covers.signal s
  · exact CoversText.wideResult

@[simp] theorem wrongType {expected : String} :
    FailsIn F (.error (.wrongType expected v) : Except Fault α) :=
  about

end FailsIn

namespace Value

@[simp] theorem asList_failsIn : FailsIn F v.asList := by
  cases v <;> simp [asList]

/-- A value that is no sequence is named in the complaint. -/
@[simp] theorem asSequence_failsIn : FailsIn F v.asSequence := by
  cases v <;> simp [asSequence]

@[simp] theorem asString_failsIn : FailsIn F v.asString := by
  cases v <;> simp [asString]

@[simp] theorem asChars_failsIn : FailsIn F v.asChars := by
  simp [asChars]

@[simp] theorem asInt_failsIn : FailsIn F v.asInt := by
  cases v <;> simp [asInt]

/-- An argument left out has its default; any other is to be an integer. -/
@[simp] theorem asIntOr_failsIn {default : Int} : FailsIn F (v.asIntOr default) := by
  simp [asIntOr]

@[simp] theorem asName_failsIn : FailsIn F v.asName := by
  cases v <;> simp [asName]

@[simp] theorem asNumber_failsIn : FailsIn F v.asNumber := by
  cases v <;> simp [asNumber]

/-- Lists beyond the bound are signalled, not built. -/
@[simp] theorem ofItems_failsIn {items : List Value} : FailsIn F (ofItems items) := by
  simp [ofItems]

@[simp] theorem ofInt_failsIn {n : Int} : FailsIn F (ofInt n) := by
  simp [ofInt]

end Value

namespace Primitive

@[simp] theorem car_failsIn : FailsIn F (car v) := by
  unfold car
  split <;> simp

@[simp] theorem cdr_failsIn : FailsIn F (cdr v) := by
  unfold cdr
  split <;> simp

/-- The last argument is taken as it is; the others are to be sequences. -/
@[simp] theorem append_failsIn {args : List Value} : FailsIn F (append args) := by
  unfold append
  split
  · simp
  · refine .bind (.mapM fun _ => Value.asSequence_failsIn) fun _ => ?_
    split <;> simp

/-- The elements of a list joined to a text are to be codes of characters. -/
@[simp] theorem ofCodes_failsIn {codes : List Value} : FailsIn F (ofCodes codes) := by
  simp [ofCodes]

@[simp] theorem textOf_failsIn : FailsIn F (textOf v) := by
  unfold textOf
  split <;> simp

@[simp] theorem concat_failsIn {args : List Value} : FailsIn F (concat args) := by
  simp [concat]

end Primitive

end Common

/-- A fault that a call contains, or that of a class without digits. -/
def Fault.Ordinary (f : Fault) : Prop :=
  f.isContained ∨ f = .emptyDigitClass

instance : Covers Fault.Ordinary where
  signal _ := .inl rfl
  wideResult := .inl rfl
  notCharacter := .inl rfl
  wideCharacter := .inl rfl

/-- Read for a single fault, so that a concrete one is settled by evaluating whether it is
contained. -/
@[simp] theorem Fault.ordinary_iff {f : Fault} :
    FailsIn Fault.Ordinary (.error f : Except Fault α) ↔ f.isContained ∨ f = .emptyDigitClass :=
  Iff.rfl

attribute [simp] Fault.isContained

namespace Primitive

variable {args : List Value}

section Arguments

variable {f : Value → Except Fault Value} {g : Value → Value → Except Fault Value}
  {h : Value → Value → Value → Except Fault Value} {j : List Value → Except Fault Value}

/-- Any other number of arguments is a fault of its own, which a call contains. -/
@[simp] theorem unary_ordinary (hf : ∀ a, FailsIn Fault.Ordinary (f a)) :
    FailsIn Fault.Ordinary (unary f args) := by
  unfold unary
  split <;> simp [*]

@[simp] theorem binary_ordinary (hg : ∀ a b, FailsIn Fault.Ordinary (g a b)) :
    FailsIn Fault.Ordinary (binary g args) := by
  unfold binary
  split <;> simp [*]

@[simp] theorem ternary_ordinary (hh : ∀ a b c, FailsIn Fault.Ordinary (h a b c)) :
    FailsIn Fault.Ordinary (ternary h args) := by
  unfold ternary
  split <;> simp [*]

/-- Missing optional arguments are filled in before the operation sees them. -/
@[simp] theorem flexible_ordinary {required optional : Nat}
    (hj : ∀ args, FailsIn Fault.Ordinary (j args)) :
    FailsIn Fault.Ordinary (flexible required optional j args) := by
  simp [flexible, hj]

@[simp] theorem unaryOr_ordinary (hg : ∀ a b, FailsIn Fault.Ordinary (g a b)) :
    FailsIn Fault.Ordinary (unaryOr g args) := by
  unfold unaryOr
  split <;> simp [*]

@[simp] theorem binaryOr_ordinary (hh : ∀ a b c, FailsIn Fault.Ordinary (h a b c)) :
    FailsIn Fault.Ordinary (binaryOr h args) := by
  unfold binaryOr
  split <;> simp [*]

/-- One argument is required; the operation has the rest as a list. -/
@[simp] theorem leading_ordinary {k : Value → List Value → Except Fault Value}
    (hk : ∀ a rest, FailsIn Fault.Ordinary (k a rest)) :
    FailsIn Fault.Ordinary (leading k args) := by
  unfold leading
  split <;> simp [*]

/-- Tests answer with a value and cannot fail by themselves. -/
@[simp] theorem test_ordinary {p : Value → Bool} : FailsIn Fault.Ordinary (test p args) := by
  simp [test]

end Arguments

section Numbers

variable {a b : Number} {x : Float} {n : Int}

/-- Integers that are too wide are signalled as an overflow. -/
@[simp] theorem checked_ordinary : FailsIn Fault.Ordinary a.checked := by
  cases a <;> simp [Number.checked]

/-- An integer may be too large for a double. -/
@[simp] theorem round_ordinary : FailsIn Fault.Ordinary a.round := by
  unfold Number.round
  split
  · simp
  · split <;> simp

@[simp] theorem combine_ordinary {onInts : Int → Int → Int} {onFloats : Float → Float → Float} :
    FailsIn Fault.Ordinary (Number.combine onInts onFloats a b) := by
  unfold Number.combine
  split <;> simp

@[simp] theorem floatQuotient_ordinary : FailsIn Fault.Ordinary (a.floatQuotient b) := by
  simp [Number.floatQuotient]

@[simp] theorem div_ordinary : FailsIn Fault.Ordinary (a.div b) := by
  unfold Number.div
  split <;> simp

/-- Both a zero divisor and an infinite quotient are contained. -/
@[simp] theorem ratio_ordinary : FailsIn Fault.Ordinary (a.ratio b) := by
  unfold Number.ratio
  repeat' split
  all_goals simp

@[simp] theorem number_modulo_ordinary : FailsIn Fault.Ordinary (a.modulo b) := by
  unfold Number.modulo
  split <;> simp

/-- Neither infinities nor what is not a number can be cut to an integer. -/
@[simp] theorem truncateFloat_ordinary : FailsIn Fault.Ordinary (Number.truncateFloat x) := by
  unfold Number.truncateFloat
  split <;> simp

@[simp] theorem truncate_ordinary : FailsIn Fault.Ordinary a.truncate := by
  cases a <;> simp [Number.truncate]

@[simp] theorem rounded_ordinary : FailsIn Fault.Ordinary (rounded n) := by
  simp [rounded]

/-- Arithmetic begins with checking that all arguments are numbers. -/
@[simp] theorem numbers_ordinary : FailsIn Fault.Ordinary (numbers args) := by
  simp [numbers]

theorem difference_ordinary : FailsIn Fault.Ordinary (difference args) := by
  unfold difference
  refine .bind numbers_ordinary fun ns => ?_
  split <;> simp [Number.sub]

theorem best_ordinary {better : Number → Number → Bool} :
    FailsIn Fault.Ordinary (best better args) := by
  simp [best]

theorem chain_ordinary {accepted : List Ordering} :
    FailsIn Fault.Ordinary (chain accepted args) := by
  simp [chain]

/-- An element of an arithmetic progression may overflow. -/
theorem sequenceItem_ordinary {i : Nat} : FailsIn Fault.Ordinary (sequenceItem a b i) := by
  simp [sequenceItem, Number.add, Number.mul]

/-- A progression with a zero increment is signalled before any element is made. -/
theorem numberSequence_ordinary : FailsIn Fault.Ordinary (numberSequence args) := by
  refine flexible_ordinary fun args => ?_
  split
  · simp [sequenceItem_ordinary, Number.sub]
  · simp

/-- All of arithmetic fails in ordinary faults. -/
theorem arithmetic_ordinary : ∀ p ∈ arithmetic, ∀ args, FailsIn Fault.Ordinary (p.2 args) := by
  simp [arithmetic, sum, difference_ordinary, product, quotient, remainder, modulo, successor,
    predecessor, maximum, minimum, best_ordinary, magnitude, chain_ordinary, differs, isZero,
    numberSequence_ordinary, Number.add, Number.sub, Number.mul]

end Numbers

section Sequences

variable {v x : Value} {items : List Value} {left n : Nat}

/-- Running out of what may be visited is a signal. -/
@[simp] theorem spend_ordinary : FailsIn Fault.Ordinary (spend n) := by
  cases n <;> simp [spend]

/-- Running out of calls is contained, too. -/
@[simp] theorem enter_ordinary : FailsIn Fault.Ordinary (enter n) := by
  cases n with
  | zero => exact Fault.ordinary_iff.2 (.inl rfl)
  | succ n => exact .ret

@[simp] theorem safely_ordinary {step : Value → Except Fault Value}
    (h : ∀ v, FailsIn Fault.Ordinary (step v)) : FailsIn Fault.Ordinary (safely step args) := by
  simp [safely, h]

/-- A chain of first and rest fails as one of its steps does. -/
theorem path_ordinary {steps : List (Value → Except Fault Value)}
    (h : ∀ step ∈ steps, ∀ v, FailsIn Fault.Ordinary (step v)) :
    FailsIn Fault.Ordinary (path steps args) := by
  refine unary_ordinary fun v => ?_
  induction steps with
  | nil => exact .ok
  | cons step steps ih =>
    rw [List.foldrM_cons]
    exact .bind (ih fun s hs => h s (.tail _ hs)) fun v => h step (.head _) v

/-- Past the end of a list there is nothing; past a dotted end there is an error. -/
@[simp] theorem nthcdr_failsIn : FailsIn Fault.Ordinary (nthcdr n v) := by
  fun_induction nthcdr n v <;> simp_all

@[simp] theorem nth_ordinary : FailsIn Fault.Ordinary (nth n v) := by
  simp [nth]

/-- Lists answer for every index, other sequences only within their bounds. -/
@[simp] theorem element_ordinary : FailsIn Fault.Ordinary (element v x) := by
  unfold element
  refine .bind Value.asInt_failsIn fun n => ?_
  split
  iterate 3 exact nth_ordinary
  refine .bind Value.asSequence_failsIn fun items => ?_
  split <;> simp

@[simp] theorem length_ordinary : FailsIn Fault.Ordinary (length v) := by
  unfold length
  split <;> simp

@[simp] theorem reverse_ordinary : FailsIn Fault.Ordinary (reverse v) := by
  unfold reverse
  split <;> simp

section Equality

mutual

/-- Comparing stops with a signal when the values are too large together. -/
theorem equalWithin_ordinary (a b : Value) (left : Nat) :
    FailsIn Fault.Ordinary (a.equalWithin b left) := by
  rw [Value.equalWithin]
  refine .bind spend_ordinary fun left => ?_
  split
  · rename_i xs ys
    simp [equalAllWithin_ordinary xs ys]
  · rename_i xs s ys t
    simp [equalAllWithin_ordinary xs ys, equalWithin_ordinary s t]
  all_goals simp

theorem equalAllWithin_ordinary (as bs : List Value) (left : Nat) :
    FailsIn Fault.Ordinary (Value.equalAllWithin as bs left) := by
  rw [Value.equalAllWithin.eq_def]
  split
  · rename_i a as b bs
    simp [equalAllWithin_ordinary as bs, equalWithin_ordinary a b]
  · simp

end

/-- A test that fails, if at all, the way primitives do. -/
def Plainly (test : Sameness) : Prop :=
  ∀ a b, FailsIn Fault.Ordinary (test a b)

theorem equal_plainly : Plainly Value.equal := by
  intro a b
  simp [Value.equal, equalWithin_ordinary]

/-- Identity is unknown for values that may be shared or copied, which is a signal. -/
theorem eq_plainly : Plainly Value.eq := by
  intro a b
  unfold Value.eq
  split
  · simp
  · split <;> simp

theorem eql_plainly : Plainly eql := by
  intro a b
  unfold eql
  split
  · simp
  · exact eq_plainly _ _

variable {test : Sameness}

/-- A sameness test as a primitive of two arguments. -/
theorem same_ordinary (h : Plainly test) : FailsIn Fault.Ordinary (same test args) := by
  simp [same, h _ _]

theorem removeWhere_ordinary {p : Value → Except Fault Bool}
    (h : ∀ v, FailsIn Fault.Ordinary (p v)) : FailsIn Fault.Ordinary (removeWhere p items) := by
  simp [removeWhere, h]

theorem remove_ordinary (h : Plainly test) : FailsIn Fault.Ordinary (remove test args) := by
  simp [remove, removeWhere_ordinary (h · _)]

/-- Each comparison spends from one common allowance. -/
theorem isAmong_ordinary : FailsIn Fault.Ordinary (isAmong x left items) := by
  induction items generalizing left with
  | nil => exact .ok
  | cons y rest ih => simp [isAmong, equalWithin_ordinary, ih]

theorem distinct_ordinary {kept : List Value} :
    FailsIn Fault.Ordinary (distinct kept left items) := by
  induction items generalizing kept left with
  | nil => exact .ok
  | cons y rest ih => simp [distinct, isAmong_ordinary, ih]

theorem removeDuplicates_ordinary : FailsIn Fault.Ordinary (removeDuplicates v) := by
  simp [removeDuplicates, distinct_ordinary]

theorem fromFirst_ordinary {p : Value → Except Fault Bool} (h : ∀ v, FailsIn Fault.Ordinary (p v)) :
    FailsIn Fault.Ordinary (fromFirst p items) := by
  induction items with
  | nil => exact .ok
  | cons y rest ih => simp [fromFirst, h, ih]

theorem member_ordinary (h : Plainly test) : FailsIn Fault.Ordinary (member test args) := by
  simp [member, fromFirst_ordinary (h · _)]

/-- Looking up an entry takes its key by a step of its own, which is to fail plainly as well. -/
theorem findEntry_ordinary {part : Value → Except Fault Value} {alist : Value}
    (hp : ∀ v, FailsIn Fault.Ordinary (part v)) (h : Plainly test) :
    FailsIn Fault.Ordinary (findEntry part test x alist) := by
  simp [findEntry, hp, h _ _]

theorem assoc_ordinary {alist : Value} : FailsIn Fault.Ordinary (assoc x alist v) := by
  simp [assoc, findEntry_ordinary (fun _ => car_failsIn) equal_plainly]

theorem alistGet_ordinary : FailsIn Fault.Ordinary (alistGet args) := by
  refine flexible_ordinary fun args => ?_
  split
  · simp [assoc_ordinary, findEntry_ordinary (fun _ => car_failsIn) eq_plainly]
  · simp

/-- Properties are compared by identity, two places at a time. -/
theorem fromProperty_ordinary : FailsIn Fault.Ordinary (fromProperty x items) := by
  fun_induction fromProperty x items <;> simp [eq_plainly _ _, *]

theorem propertyValue_ordinary : FailsIn Fault.Ordinary (propertyValue x items) := by
  fun_induction propertyValue x items <;> simp [eq_plainly _ _, *]

theorem plistGet_ordinary {test : Value} : FailsIn Fault.Ordinary (plistGet v x test) := by
  simp [plistGet, propertyValue_ordinary]

theorem plistMember_ordinary {test : Value} : FailsIn Fault.Ordinary (plistMember v x test) := by
  simp [plistMember, fromProperty_ordinary]

end Equality

mutual

/-- Flattening spends one for each part of the tree. -/
theorem leavesOnto_ordinary (out : List Value) (left : Nat) (tree : Value) :
    FailsIn Fault.Ordinary (leavesOnto out left tree) := by
  rw [leavesOnto.eq_def]
  refine .bind spend_ordinary fun left => ?_
  split
  · simp
  · rename_i items
    exact leavesAllOnto_ordinary out left items
  · rename_i items tail
    exact .bind (leavesAllOnto_ordinary out left items) fun r => leavesOnto_ordinary r.1 r.2 tail
  · simp

theorem leavesAllOnto_ordinary (out : List Value) (left : Nat) (trees : List Value) :
    FailsIn Fault.Ordinary (leavesAllOnto out left trees) := by
  rw [leavesAllOnto.eq_def]
  split
  · simp
  · rename_i tree rest
    exact .bind (leavesOnto_ordinary out left tree) fun r => leavesAllOnto_ordinary r.1 r.2 rest

end

theorem flatten_ordinary : FailsIn Fault.Ordinary (flatten v) := by
  simp [flatten, leavesOnto_ordinary]

theorem sorted_ordinary {key : Value → Except Fault SortKey}
    (h : ∀ v, FailsIn Fault.Ordinary (key v)) : FailsIn Fault.Ordinary (sorted key items) := by
  simp [sorted, h]

/-- An order is found by its name; whichever is found has keys that fail plainly. -/
theorem ofOrder_ends : EndsIn (fun key => ∀ v, FailsIn Fault.Ordinary (key v)) Fault.Ordinary
    (SortKey.ofOrder x) := by
  have hother : FailsIn Fault.Ordinary (if x.isHashable
      then .error (Fault.about x (.unsortable x))
        else .error .unhashable : Except Fault Value) := by
    simp
  unfold SortKey.ofOrder
  split
  · exact fun v => by simp [SortKey.byName]
  · exact fun v => by simp [SortKey.byName]
  · exact fun v => by simp [SortKey.byNumber]
  · split <;> simp_all [FailsIn, EndsIn]

/-- An unknown order, a key of the wrong type and an unhashable order are all contained. -/
theorem sort_ordinary : FailsIn Fault.Ordinary (sort v x) := by
  refine .after ofOrder_ends fun key hkey => ?_
  split <;> simp [sorted_ordinary hkey]

theorem last_ordinary : FailsIn Fault.Ordinary (last v x) := by
  simp [last]

theorem butLast_ordinary : FailsIn Fault.Ordinary (butLast v x) := by
  simp [butLast]

theorem take_ordinary : FailsIn Fault.Ordinary (take v x) := by
  simp [take]

/-- All operations on sequences fail in ordinary faults. -/
theorem sequences_ordinary : ∀ p ∈ sequences, ∀ args, FailsIn Fault.Ordinary (p.2 args) := by
  have hpath : ∀ {args steps}, (∀ step ∈ steps, step ∈ [car, cdr]) →
      FailsIn Fault.Ordinary (path steps args) := by
    intro args steps h
    refine path_ordinary fun step hs v => ?_
    have := h step hs
    simp only [List.mem_cons, List.not_mem_nil, or_false] at this
    rcases this with rfl | rfl <;> simp
  simp [sequences, cons, hpath, last_ordinary, butLast_ordinary, take_ordinary, remove_ordinary,
    removeDuplicates_ordinary, member_ordinary, equal_plainly, eq_plainly, assoc_ordinary,
    findEntry_ordinary, alistGet_ordinary, plistGet_ordinary, plistMember_ordinary,
      flatten_ordinary, sort_ordinary]

/-- All tests of sameness and type fail in ordinary faults. -/
theorem tests_ordinary : ∀ p ∈ tests, ∀ args, FailsIn Fault.Ordinary (p.2 args) := by
  simp [tests, same_ordinary, eq_plainly, eql_plainly, equal_plainly]

end Sequences

section Texts

variable {v w x : Value} {cs : List Char}

theorem compareNames_ordinary {test : String → String → Bool} :
    FailsIn Fault.Ordinary (compareNames test args) := by
  simp [compareNames]

/-- Bounds outside of the sequence are signalled. -/
theorem slice_ordinary {items : List α} : FailsIn Fault.Ordinary (slice items v w) := by
  simp [slice]

theorem substring_ordinary : FailsIn Fault.Ordinary (substring args) := by
  refine flexible_ordinary fun args => ?_
  split <;> simp [slice_ordinary]

theorem firstChar_ordinary : FailsIn Fault.Ordinary (firstChar v) := by
  refine .bind Value.asChars_failsIn fun cs => ?_
  split <;> simp

/-- Only a code has to be turned into a character first; the mapping itself cannot fail. -/
theorem mapCase_ordinary {f : List Char → List Char} : FailsIn Fault.Ordinary (mapCase f args) := by
  refine unary_ordinary fun v => ?_
  split
  · refine .bind Pattern.charOf_failsIn fun c => ?_
    split <;> simp
  · simp

/-- Faults of numerals are contained, whatever the text. -/
@[simp] theorem writtenNumeral_ordinary {r : Except Text.Numeral.Fault α} :
    FailsIn Fault.Ordinary (r.mapError Fault.numeral) := by
  cases r with
  | ok v => exact FailsIn.ok
  | error f => exact Fault.ordinary_iff.2 (.inl rfl)

theorem numberText_ordinary : FailsIn Fault.Ordinary (numberText v) := by
  refine .bind Value.asNumber_failsIn fun n => ?_
  split <;> simp

/-- Only the longest run of digits is read, but it may have too many of them. -/
theorem leadingInt_ordinary {isDigit : Char → Bool} {base : Nat} :
    FailsIn Fault.Ordinary (leadingInt isDigit base cs) := by
  simp [leadingInt]

/-- The base may offer no digits at all; this is the one fault that no call contains. -/
theorem parseNumber_ordinary : FailsIn Fault.Ordinary (parseNumber v w) := by
  refine .bind Value.asChars_failsIn fun cs => .bind Value.asIntOr_failsIn fun base => ?_
  split
  · split <;> simp [leadingInt_ordinary]
  · simp [leadingInt_ordinary]

theorem symbolName_ordinary : FailsIn Fault.Ordinary (symbolName v) := by
  unfold symbolName
  split
  · simp
  · split <;> simp

theorem splitText_ordinary : FailsIn Fault.Ordinary (splitText args) := by
  refine flexible_ordinary fun args => ?_
  split <;> simp [ofTexts]

/-- Trimming with a regexp of one's own is signalled. -/
theorem trimmed_ordinary {trim : (Char → Bool) → List Char → List Char} :
    FailsIn Fault.Ordinary (trimmed trim cs v) := by
  simp [trimmed]

theorem trimBoth_ordinary : FailsIn Fault.Ordinary (trimBoth args) := by
  refine flexible_ordinary fun args => ?_
  split <;> simp [trimmed_ordinary]

theorem alternatives_ordinary : FailsIn Fault.Ordinary (alternatives args) := by
  refine flexible_ordinary fun args => ?_
  split <;> simp

/-- All operations that write regexps fail in ordinary faults. -/
theorem regexps_ordinary : ∀ p ∈ regexps, ∀ args, FailsIn Fault.Ordinary (p.2 args) := by
  simp [regexps, mapText, charset, alternatives_ordinary, groupDepth]

end Texts

section Formats

variable {v : Value} {cs : List Char}

mutual

/-- Printing runs out of visits or of calls; every other value has a text or is signalled as
unprintable. -/
theorem printOnto_ordinary (readably : Bool) (calls : Nat) (out : String) (v : Value) (left : Nat) :
    FailsIn Fault.Ordinary (v.printOnto readably calls out left) := by
  rw [Value.printOnto.eq_def]
  refine .bind enter_ordinary fun calls => .bind spend_ordinary fun left => ?_
  split
  case h_7 first rest =>
    refine .bind enter_ordinary fun inner => .bind (printOnto_ordinary _ _ _ first _) fun r => ?_
    exact .bind (printAllOnto_ordinary _ _ _ rest _) fun _ => .ret
  case h_8 items tail =>
    refine .bind enter_ordinary fun inner => ?_
    have htail : ∀ calls out left,
        FailsIn Fault.Ordinary (tail.printOnto readably calls out left) :=
      fun calls out left => printOnto_ordinary readably calls out tail left
    split
    · simp [htail]
    · rename_i first rest
      refine .bind (printOnto_ordinary _ _ _ first _) fun r => ?_
      refine .bind (printAllOnto_ordinary _ _ _ rest _) fun r => ?_
      simp [htail]
  case h_9 items =>
    refine .bind enter_ordinary fun inner => ?_
    split
    · exact .ret
    · rename_i first rest
      refine .bind (printOnto_ordinary _ _ _ first _) fun r => ?_
      exact .bind (printAllOnto_ordinary _ _ _ rest _) fun _ => .ret
  all_goals simp

theorem printAllOnto_ordinary (readably : Bool) (calls : Nat) (out : String) (items : List Value)
    (left : Nat) : FailsIn Fault.Ordinary (Value.printAllOnto readably calls out items left) := by
  rw [Value.printAllOnto.eq_def]
  split
  · simp
  · rename_i v rest
    exact .bind (printOnto_ordinary _ _ _ v left) fun r => printAllOnto_ordinary _ _ _ rest r.2

end

theorem readNat_ordinary : FailsIn Fault.Ordinary (readNat cs) := by
  simp [readNat]

/-- A directive is cut off by the end of the text, or its position is too long to be read. -/
theorem directive_ordinary {next : Int} : FailsIn Fault.Ordinary (directive next cs) := by
  unfold directive
  split
  · simp
  split
  · simp
  split
  · simp
  split
  · simp
  · rename_i h
    exact readNat_ordinary.of_error h

theorem intText_ordinary {conversion : Char} {flags : List Char} {n : Int} :
    FailsIn Fault.Ordinary (intText conversion flags n) := by
  have hbody : FailsIn Fault.Ordinary (intBody conversion n) := by
    unfold intBody
    split <;> simp
  simp [intText, hbody]

theorem print_ordinary {readably : Bool} : FailsIn Fault.Ordinary (v.print readably) := by
  simp [Value.print, printOnto_ordinary]

/-- Width and precision are bounded before the argument is looked at. -/
theorem convert_ordinary {spec : Spec} : FailsIn Fault.Ordinary (convert spec v) := by
  have hprecision : FailsIn Fault.Ordinary (spec.precision.mapM readNat) := by
    cases spec.precision <;> simp [readNat_ordinary]
  refine .either readNat_ordinary fun width => ?_
  refine .ite (fun _ => .signal) fun _ => .bind hprecision fun precision => ?_
  refine .ite (fun _ => .signal) fun _ => ?_
  dsimp only
  split <;> simp [Value.princ, Value.prin1, print_ordinary, intText_ordinary]

/-- There may be fewer arguments than directives, and none before the first. -/
theorem argument_ordinary {index : Int} : FailsIn Fault.Ordinary (argument args index) := by
  unfold argument
  split
  · simp
  · split <;> simp

/-- The fault of a format is that of a directive, of its argument or of its conversion. -/
theorem formatFrom_ordinary {out : List Char} {next : Int} :
    FailsIn Fault.Ordinary (formatFrom args out next cs) := by
  fun_induction formatFrom args out next cs with
  | case1 => simp
  | case2 _ _ _ _ hd => exact directive_ordinary.of_error hd
  | case4 _ _ _ _ _ _ _ hd _ ha => exact argument_ordinary.of_error ha
  | case5 _ _ _ _ _ _ _ hd _ ha _ hc => exact convert_ordinary.of_error hc
  | _ => assumption

theorem format_ordinary : FailsIn Fault.Ordinary (format args) := by
  simp [format, formatFrom_ordinary]

end Formats

section Tables

variable {name : String} {f : Primitive}

/-- All operations on texts fail in ordinary faults. -/
theorem texts_ordinary : ∀ p ∈ texts, ∀ args, FailsIn Fault.Ordinary (p.2 args) := by
  simp [texts, compareNames_ordinary, affix, mapText, substring_ordinary, string,
    firstChar_ordinary, charText, mapCase_ordinary, joinTexts, makeString, replaceText, searchText,
    numberText_ordinary, parseNumber_ordinary, symbolName_ordinary, splitText_ordinary,
    trimBoth_ordinary, trimSide, trimmed_ordinary, format_ordinary]

/-- A call contains every fault of a primitive, but for that of a class without digits. -/
theorem named?_ordinary (h : named? name = some f) (args : List Value) :
    FailsIn Fault.Ordinary (f args) := by
  have hall : ∀ p ∈ all, ∀ args, FailsIn Fault.Ordinary (p.2 args) := by
    simp only [all, List.forall_mem_append]
    exact ⟨⟨⟨⟨arithmetic_ordinary, tests_ordinary⟩, sequences_ordinary⟩, texts_ordinary⟩,
      regexps_ordinary⟩
  exact hall _ (mem_of_named? h) args

end Tables

end Primitive

end PatternLint
