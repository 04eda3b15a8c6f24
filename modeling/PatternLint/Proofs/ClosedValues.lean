import PatternLint.Primitive.Table
import PatternLint.Proofs.Material
import PatternLint.Proofs.TextLengths

/-! Predicates on values that the primitives keep. What is asked of a predicate is said once, for
the ways in which primitives take values apart and put them together; each primitive is shown to
keep all such predicates. -/

namespace PatternLint

/-- What is true of a value is true of its parts and of what is left of it, and what is put together
within the bounds that primitives observe has it, too. -/
structure Value.Closed (P : Value → Prop) : Prop where
  nil : P .nil
  t : P (.sym "t")
  int (n : Int) : P (.int n)
  float (x : Float) : P (.float x)
  str {text : String} (h : text.length ≤ maxLength) : P (.str text)
  list {items : List Value} (h : ∀ v ∈ items, P v) (hne : items ≠ [])
    (hl : items.length ≤ maxLength) :
    P (.list items)
  item_list {items : List Value} (h : P (.list items)) : ∀ v ∈ items, P v
  item_dotted {items : List Value} {tail : Value} (h : P (.dotted items tail)) : ∀ v ∈ items, P v
  tail_dotted {items : List Value} {tail : Value} (h : P (.dotted items tail)) : P tail
  item_vec {items : List Value} (h : P (.vec items)) : ∀ v ∈ items, P v
  less_str {text less : String} (h : P (.str text)) (hl : less.length ≤ text.length) : P (.str less)
  drop_list {items : List Value} (h : P (.list items)) (n : Nat) : P (ofList (items.drop n))
  drop_dotted {items : List Value} {tail : Value} {n : Nat} (h : P (.dotted items tail))
    (hn : n < items.length) : P (.dotted (items.drop n) tail)
  less_vec {items less : List Value} (h : P (.vec items)) (hitems : ∀ v ∈ less, P v)
    (hl : less.length ≤ items.length) : P (.vec less)
  codes {text : String} (h : P (.str text)) : P (.vec (charCodes text))

/-- Nothing depends on how long texts, lists and vectors are. -/
structure Value.FreelyClosed (P : Value → Prop) : Prop extends Value.Closed P where
  anyStr (text : String) : P (.str text)
  anyVec {items : List Value} (h : ∀ v ∈ items, P v) : P (.vec items)
  prepend {items : List Value} {v : Value} (h : ∀ v ∈ items, P v) (hv : P v) : P (prepend items v)

/-- Values of one kind are taken to values of that kind. -/
def Primitive.Keeps (P : Value → Prop) (f : Primitive) : Prop :=
  ∀ args, (∀ v ∈ args, P v) → Returns P (f args)

variable {P : Value → Prop} {v x key : Value} {items args : List Value} {α β : Type}

/-- What every step of a fold keeps, the whole fold keeps. -/
theorem Returns.foldlM {A : β → Prop} {g : β → α → Except Fault β} {xs : List α} {b : β} (h : A b)
    (hg : ∀ b, A b → ∀ x, Returns A (g b x)) : Returns A (xs.foldlM g b) := by
  induction xs generalizing b with
  | nil => exact .ret h
  | cons x xs ih =>
    rw [List.foldlM_cons]
    exact (hg b h x).bind fun b hb => ih hb

/-- What a test leaves of a list is part of it. -/
theorem Returns.filterM {g : Value → Except Fault Bool} :
    Returns (fun kept => ∀ v ∈ kept, v ∈ items) (items.filterM g) := by
  have haux : ∀ (xs kept : List Value), (∀ v ∈ kept, v ∈ items) → (∀ v ∈ xs, v ∈ items) →
      Returns (fun out => ∀ v ∈ out, v ∈ items) (xs.filterAuxM g kept) := by
    intro xs
    induction xs with
    | nil => exact fun kept hkept _ => .ok hkept
    | cons x xs ih =>
      intro kept hkept hxs
      obtain ⟨hx, hxs⟩ := List.forall_mem_cons.1 hxs
      refine Returns.after fun b => ih _ ?_ hxs
      cases b
      · exact hkept
      · exact List.forall_mem_cons.2 ⟨hx, hkept⟩
  refine (haux items [] (List.forall_mem_nil _) fun _ => id).bind fun out hout => .ret ?_
  exact fun v hv => hout v (List.mem_reverse.1 hv)

/-- What a search finds is one of the items. -/
theorem Returns.findM? {g : Value → Except Fault Bool} :
    Returns (fun o => ∀ v ∈ o, v ∈ items) (items.findM? g) := by
  induction items with
  | nil => exact .ok nofun
  | cons x xs ih =>
    refine Returns.after fun b => ?_
    cases b
    · exact ih.mono fun o ho v hv => List.mem_cons_of_mem _ (ho v hv)
    · exact .ok fun v hv => by cases hv; exact List.mem_cons_self

namespace Value.Closed

/-- The answers of tests are `nil` and `t`. -/
theorem ofBool (K : Closed P) (b : Bool) : P (ofBool b) := by
  cases b
  · exact K.nil
  · exact K.t

/-- A list is built only within the bound, so nothing has to be known of longer ones. -/
theorem ofItems (K : Closed P) (h : ∀ v ∈ items, P v) : Returns P (ofItems items) := by
  refine .ite (fun _ => .error) fun hl => ?_
  cases items with
  | nil => exact .ok K.nil
  | cons v rest => exact .ok (K.list h (List.cons_ne_nil _ _) (Nat.le_of_not_lt hl))

theorem ofInt (K : Closed P) (n : Int) : Returns P (ofInt n) := by
  intro v h
  rw [ofInt_ok h]
  exact K.int n

/-- A text of bounded length. -/
theorem ofChars (K : Closed P) {cs : List Char} (h : cs.length ≤ maxLength) : P (ofChars cs) :=
  K.str (by rwa [String.length_ofList])

/-- The characters of a text are integers, which have every closed predicate. -/
theorem charCodes (K : Closed P) (text : String) : ∀ v ∈ charCodes text, P v := by
  intro v hv
  obtain ⟨c, -, rfl⟩ := List.mem_map.1 hv
  exact K.int _

theorem asList (K : Closed P) (h : P v) : Returns (fun items => ∀ v ∈ items, P v) v.asList := by
  cases v with
  | nil => exact .ok (List.forall_mem_nil _)
  | list items => exact .ok (K.item_list h)
  | _ => exact .error

/-- The items of a sequence are its parts or, for a text, integers. -/
theorem asSequence (K : Closed P) (h : P v) :
    Returns (fun items => ∀ v ∈ items, P v) v.asSequence := by
  have hlist := K.asList h
  cases v with
  | str text => exact .ok (K.charCodes text)
  | vec items => exact .ok (K.item_vec h)
  | _ => exact hlist

/-- A text that is not longer than a given one. -/
theorem asChars (K : Closed P) (h : P v) :
    Returns (fun cs => ∀ less : List Char, less.length ≤ cs.length → P (Value.ofChars less))
      v.asChars := by
  cases v with
  | str text => exact .ok fun less hl =>
      K.less_str h (by rwa [String.length_ofList, ← String.length_toList])
  | _ => exact .error

/-- A search that finds nothing answers with `nil`. -/
theorem getD_nil (K : Closed P) {o : Option Value} (h : ∀ v ∈ o, P v) : P (o.getD .nil) := by
  cases o with
  | none => exact K.nil
  | some v => exact h v rfl

end Value.Closed

namespace Number

theorem toValue_closed (K : Value.Closed P) (n : Number) : P n.toValue := by
  cases n
  · exact K.int _
  · exact K.float _

/-- The result of arithmetic is an integer within the bounds or a double. -/
theorem checked_closed (K : Value.Closed P) (n : Number) : Returns P n.checked := by
  cases n
  · exact K.ofInt _
  · exact .ok (K.float _)

end Number

namespace Primitive

variable (K : Value.Closed P)

section Arguments

variable {f : Value → Except Fault Value} {g : Value → Value → Except Fault Value}
  {h : Value → Value → Value → Except Fault Value}

theorem keeps_unary (hf : ∀ a, P a → Returns P (f a)) : (unary f).Keeps P := by
  intro args ha
  unfold unary
  split
  · exact hf _ (ha _ List.mem_cons_self)
  · exact .error

theorem keeps_binary (hg : ∀ a, P a → ∀ b, P b → Returns P (g a b)) : (binary g).Keeps P := by
  intro args ha
  unfold binary
  split
  · exact hg _ (ha _ (by simp)) _ (ha _ (by simp))
  · exact .error

theorem keeps_ternary (hh : ∀ a b c, Returns P (h a b c)) : (ternary h).Keeps P := by
  intro args _
  unfold ternary
  split
  · exact hh _ _ _
  · exact .error

/-- An argument left out is `nil`. -/
theorem keeps_unaryOr (hnil : P .nil) (hg : ∀ a, P a → ∀ b, P b → Returns P (g a b)) :
    (unaryOr g).Keeps P := by
  intro args ha
  unfold unaryOr
  split
  · exact hg _ (ha _ (by simp)) _ hnil
  · exact hg _ (ha _ (by simp)) _ (ha _ (by simp))
  · exact .error

theorem keeps_binaryOr (hnil : P .nil)
    (hh : ∀ a, P a → ∀ b, P b → ∀ c, P c → Returns P (h a b c)) : (binaryOr h).Keeps P := by
  intro args ha
  unfold binaryOr
  split
  · exact hh _ (ha _ (by simp)) _ (ha _ (by simp)) _ hnil
  · exact hh _ (ha _ (by simp)) _ (ha _ (by simp)) _ (ha _ (by simp))
  · exact .error

/-- The rest of the arguments is handed on as it came. -/
theorem keeps_leading {j : Value → List Value → Except Fault Value}
    (hj : ∀ a, P a → ∀ rest, (∀ v ∈ rest, P v) → Returns P (j a rest)) :
    (leading j).Keeps P := by
  intro args ha
  unfold leading
  split
  · exact hj _ (ha _ List.mem_cons_self) _ fun v hv => ha v (List.mem_cons_of_mem _ hv)
  · exact .error

/-- Arguments left out are filled up with `nil`. -/
theorem keeps_flexible {required optional : Nat} {j : Primitive} (hnil : P .nil)
    (hj : j.Keeps P) :
    (flexible required optional j).Keeps P := by
  intro args ha
  refine Returns.ite (fun _ => .error) fun _ => hj _ (List.forall_mem_append.2 ⟨ha, ?_⟩)
  intro v hv
  rw [List.eq_of_mem_replicate hv]
  exact hnil

end Arguments

section Arithmetic

include K

theorem keeps_test {p : Value → Bool} : (test p).Keeps P :=
  keeps_unary fun _ _ => .ok (K.ofBool _)

theorem keeps_sum : sum.Keeps P :=
  fun _ _ => .after fun n => n.checked_closed K

/-- Without arguments it is zero; one argument is negated without a check. -/
theorem keeps_difference : difference.Keeps P := by
  intro args _
  refine .after fun ns => ?_
  split
  · exact .ok (K.int _)
  · exact .ok (Number.toValue_closed K _)
  · exact .after fun n => n.checked_closed K

/-- Every partial product goes through the check, so the last one does. -/
theorem keeps_product : product.Keeps P := by
  intro args _
  refine Returns.foldlM (K.int _) fun total _ x => ?_
  exact .after fun b => .after fun a => .after fun n => n.checked_closed K

theorem keeps_quotient : quotient.Keeps P :=
  keeps_leading fun _ _ _ _ => .after fun _ => .after fun n => .ret (n.toValue_closed K)

theorem keeps_remainder : remainder.Keeps P := by
  refine keeps_binary fun _ _ _ _ => .after fun _ => .after fun _ =>
    .after fun i => .after fun j => ?_
  exact .ite (fun _ => .error) fun _ => .ret (K.int _)

theorem keeps_modulo : modulo.Keeps P :=
  keeps_binary fun _ _ _ _ => .after fun _ => .after fun _ => .after fun n =>
    .ret (n.toValue_closed K)

theorem keeps_successor : successor.Keeps P :=
  keeps_unary fun _ _ => .after fun _ => .after fun n => n.checked_closed K

theorem keeps_predecessor : predecessor.Keeps P :=
  keeps_unary fun _ _ => .after fun _ => .after fun n => n.checked_closed K

/-- The best of the numbers is written anew, not handed through. -/
theorem keeps_best (better : Number → Number → Bool) : (best better).Keeps P :=
  keeps_leading fun _ _ _ _ => .after fun _ => .after fun n => .ret (n.toValue_closed K)

theorem keeps_magnitude : magnitude.Keeps P :=
  keeps_unary fun _ _ => .after fun n => .ret (n.abs.toValue_closed K)

/-- Comparisons answer with truth values only. -/
theorem keeps_chain (accepted : List Ordering) : (chain accepted).Keeps P :=
  keeps_leading fun _ _ _ _ => .after fun _ => .ret (K.ofBool _)

theorem keeps_differs : differs.Keeps P :=
  keeps_binary fun _ _ _ _ => .after fun _ => .after fun _ => .ret (K.ofBool _)

theorem keeps_isZero : isZero.Keeps P :=
  keeps_unary fun _ _ => .after fun _ => .ret (K.ofBool _)

/-- A progression is a list of numbers whose length is checked before it is built. -/
theorem keeps_numberSequence : numberSequence.Keeps P := by
  refine keeps_flexible K.nil fun args _ => ?_
  dsimp only
  split
  · refine .after fun start => .ite (fun _ => ?_) fun _ => .after fun finish => ?_
    · exact .ret (K.list (by simpa using start.toValue_closed K) (List.cons_ne_nil _ _)
        (by simp [maxLength]))
    · have hitems : ∀ step : Number, ∀ is : List Nat,
          Returns P (is.mapM (sequenceItem start step) >>= Value.ofItems) := by
        intro step is
        have hitem : ∀ i, True → Returns P (sequenceItem start step i) :=
          fun i _ => .after fun _ => .after fun n => .ret (n.toValue_closed K)
        exact (Returns.mapM (fun _ _ => True.intro) hitem).bind fun _ => K.ofItems
      have hbelow : ∀ step : Number, ∀ count : Int, Returns P
          (if count > maxLength then .error (.signal .sequenceTooLong)
            else (List.range count.toNat).mapM (sequenceItem start step) >>= Value.ofItems) :=
        fun step count => .ite (fun _ => .error) fun _ => hitems step _
      refine .ite (fun _ => .after fun step => ?_) fun _ => .after fun step => ?_
      all_goals
        refine .ite (fun _ => .error) fun _ => ?_
        exact .after fun _ => .after fun _ => .after fun n => hbelow step (n + 1)
  · exact .error

end Arithmetic

section Sequences

/-- Leaving out items at the front loses nothing about the others. -/
theorem drop_closed (h : ∀ v ∈ items, P v) (n : Nat) : ∀ v ∈ items.drop n, P v :=
  fun v hv => h v (List.mem_of_mem_drop hv)

theorem take_closed (h : ∀ v ∈ items, P v) (n : Nat) : ∀ v ∈ items.take n, P v :=
  fun v hv => h v (List.mem_of_mem_take hv)

theorem append_closed {more : List Value} (h : ∀ v ∈ items, P v) (h' : ∀ v ∈ more, P v) :
    ∀ v ∈ items ++ more, P v :=
  List.forall_mem_append.2 ⟨h, h'⟩

/-- The new list may be of any length, so the predicate has to be free of lengths. -/
theorem keeps_cons (F : Value.FreelyClosed P) : cons.Keeps P :=
  keeps_binary fun _ hhead _ htail => .ok (F.prepend (List.forall_mem_singleton.2 hhead) htail)

/-- Following a path of first and rest stays within the parts of a value. -/
theorem keeps_path {steps : List (Value → Except Fault Value)}
    (h : ∀ step ∈ steps, ∀ v, P v → Returns P (step v)) : (path steps).Keeps P := by
  refine keeps_unary fun v hv => ?_
  induction steps with
  | nil => exact .ret hv
  | cons step steps ih =>
    obtain ⟨hstep, hsteps⟩ := List.forall_mem_cons.1 h
    rw [List.foldrM_cons]
    exact (ih hsteps).bind hstep

/-- The items of the arguments in front of the last one, whose end stays shared. -/
theorem keeps_append (F : Value.FreelyClosed P) : append.Keeps P := by
  intro args ha
  unfold append
  split
  · exact .ret F.nil
  · rename_i tail htail
    have hseqs := Returns.mapM (fun v hv => ha v (List.dropLast_subset _ hv))
      fun x (hx : P x) => F.asSequence hx
    refine hseqs.bind fun seqs hseqs => ?_
    have hitems : ∀ v ∈ seqs.flatten, P v := by
      intro v hv
      obtain ⟨items, hi, hv⟩ := List.mem_flatten.1 hv
      exact hseqs items hi v hv
    have htail := ha tail (List.mem_of_getLast? htail)
    dsimp only
    split
    · exact F.ofItems hitems
    · exact F.ofItems (append_closed hitems (F.item_list htail))
    · exact .ret (F.prepend hitems htail)

/-- Leaving out duplicates keeps to the items that were given. -/
theorem distinct_mem {kept : List Value} {left : Nat} :
    Returns (fun out => ∀ v ∈ out, v ∈ kept ∨ v ∈ items) (distinct kept left items) := by
  induction items generalizing kept left with
  | nil => exact .ok fun v => .inl
  | cons x rest ih =>
    refine .after fun found => ih.mono fun out hout v hv => ?_
    rcases hout v hv with h | h
    · split at h
      · exact .inl h
      · rcases List.mem_append.1 h with h | h
        · exact .inl h
        · exact .inr (List.mem_cons.2 (.inl (List.mem_singleton.1 h)))
    · exact .inr (List.mem_cons_of_mem _ h)

/-- The part from the first hit on consists of given items. -/
theorem fromFirst_mem {test : Value → Except Fault Bool} :
    Returns (fun out => ∀ v ∈ out, v ∈ items) (fromFirst test items) := by
  induction items with
  | nil => exact .ok fun _ => id
  | cons x rest ih =>
    refine .after fun found => .ite (fun _ => .ret fun _ => id) fun _ => ?_
    exact ih.mono fun out hout v hv => List.mem_cons_of_mem _ (hout v hv)

/-- A property list is cut at a pair, and what is left of it was there before. -/
theorem fromProperty_mem (prop : Value) : ∀ {items : List Value},
    Returns (fun out => ∀ v ∈ out, v ∈ items) (fromProperty prop items)
  | [] => .ok fun _ => id
  | [p] => by
    refine .after fun found => .ret fun v hv => ?_
    cases found
    · cases hv
    · exact hv
  | p :: v :: rest => by
    refine .after fun found => .ite (fun _ => .ret fun _ => id) fun _ => ?_
    refine (fromProperty_mem prop).mono fun out hout x hx => ?_
    exact List.mem_cons_of_mem _ (List.mem_cons_of_mem _ (hout x hx))

/-- Sorted items are given items, and not more of them. -/
theorem sorted_mem {order : Value → Except Fault SortKey} :
    Returns (fun out => (∀ v ∈ out, v ∈ items) ∧ out.length ≤ items.length)
      (sorted order items) := by
  refine .after fun keys => .ret ⟨fun v hv => ?_, ?_⟩
  · obtain ⟨p, hp, rfl⟩ := List.mem_map.1 hv
    exact (List.of_mem_zip ((List.mergeSort_perm _ _).mem_iff.1 hp)).2
  · simp only [List.length_map, List.length_mergeSort, List.length_zip]
    exact Nat.min_le_right _ _

mutual

/-- The atoms of a tree are parts of it; the induction is on the tree and its branches together. -/
theorem leavesOnto_closed (K : Value.Closed P) {out : List Value} {left : Nat} {tree : Value}
    (ht : P tree) (ho : ∀ v ∈ out, P v) : Returns (fun r => ∀ v ∈ r.1, P v)
      (leavesOnto out left tree) := by
  rw [leavesOnto.eq_def]
  refine .after fun left => ?_
  split
  · exact .ret ho
  · exact leavesAllOnto_closed K (K.item_list ht) ho
  · refine (leavesAllOnto_closed K (K.item_dotted ht) ho).bind ?_
    rintro ⟨out, left⟩ ho
    exact leavesOnto_closed K (K.tail_dotted ht) ho
  · exact .ret (List.forall_mem_cons.2 ⟨ht, ho⟩)

theorem leavesAllOnto_closed (K : Value.Closed P) {out : List Value} {left : Nat}
    {trees : List Value} (ht : ∀ v ∈ trees, P v) (ho : ∀ v ∈ out, P v) :
    Returns (fun r => ∀ v ∈ r.1, P v) (leavesAllOnto out left trees) := by
  rw [leavesAllOnto.eq_def]
  split
  · exact .ret ho
  · refine (leavesOnto_closed K (ht _ List.mem_cons_self) ho).bind ?_
    rintro ⟨out, left⟩ ho
    exact leavesAllOnto_closed K (fun v hv => ht v (List.mem_cons_of_mem _ hv)) ho

end

include K

theorem car_closed (h : P v) : Returns P (car v) := by
  unfold car
  split
  · exact .ok K.nil
  · exact .ok K.nil
  · exact .ok (K.item_list h _ List.mem_cons_self)
  · exact .ok (K.item_dotted h _ List.mem_cons_self)
  · exact .error

/-- The rest of a list is built within the bound, the rest of a dotted one keeps its end. -/
theorem cdr_closed (h : P v) : Returns P (cdr v) := by
  unfold cdr
  split
  · exact .ok K.nil
  · exact .ok K.nil
  · exact K.ofItems fun v hv => K.item_list h v (List.mem_cons_of_mem _ hv)
  · exact .ok (K.tail_dotted h)
  · rename_i x rest tail hrest
    refine .ok (K.drop_dotted (n := 1) h ?_)
    rw [List.length_cons]
    exact Nat.succ_lt_succ (List.length_pos_iff.2 hrest)
  · exact .error

theorem keeps_safely {step : Value → Except Fault Value} (h : ∀ v, P v → Returns P (step v)) :
    (safely step).Keeps P :=
  keeps_unary fun v hv => .ite (fun _ => h v hv) fun _ => .ok K.nil

/-- Steps beyond the items of a dotted list go on in its end. -/
theorem nthcdr_closed {v : Value} (h : P v) (n : Nat) : Returns P (nthcdr n v) := by
  cases v with
  | nil => exact .ok K.nil
  | list items =>
    rw [nthcdr]
    exact .ite (fun _ => .ok h) fun _ => .ite (fun _ => .error) fun _ => .ok (K.drop_list h n)
  | dotted items tail =>
    rw [nthcdr]
    exact .ite (fun hn => .ok (K.drop_dotted h hn)) fun _ => nthcdr_closed (K.tail_dotted h) _
  | _ => exact .ite (fun _ => .ok h) fun _ => .error

theorem nth_closed (h : P v) (n : Nat) : Returns P (nth n v) :=
  (nthcdr_closed K h n).bind fun _ => car_closed K

/-- An element of a text is the code of a character. -/
theorem element_closed (h : P v) (index : Value) : Returns P (element v index) := by
  refine .after fun n => ?_
  split
  · exact nth_closed K h _
  · exact nth_closed K h _
  · exact nth_closed K h _
  · refine (K.asSequence h).bind fun items hitems => ?_
    split
    · rename_i x hx
      split at hx
      · cases hx
      · exact .ret (hitems x (List.mem_of_getElem? hx))
    · exact .error

theorem length_closed : Returns P (length v) := by
  unfold length
  split
  · exact .error
  · exact .after fun _ => .ret (K.int _)

theorem last_closed (h : P v) (n : Value) : Returns P (last v n) := by
  refine (K.asList h).bind fun items hitems => .after fun count =>
    .ite (fun _ => .ret K.nil) fun _ => ?_
  exact K.ofItems (drop_closed hitems _)

theorem butLast_closed (h : P v) (n : Value) : Returns P (butLast v n) :=
  (K.asList h).bind fun _ hitems => .after fun _ => K.ofItems (take_closed hitems _)

theorem take_sequence_closed (h : P v) (n : Value) : Returns P (take n v) :=
  (K.asList h).bind fun _ hitems => .after fun _ => K.ofItems (take_closed hitems _)

/-- A reversed text is as long as it was. -/
theorem reverse_closed (h : P v) : Returns P (reverse v) := by
  unfold reverse
  split
  · have hlength (s : String) : (String.ofList s.toList.reverse).length = s.length := by
      rw [String.length_ofList, List.length_reverse, String.length_toList]
    exact .ok (K.less_str h (Nat.le_of_eq (hlength _)))
  · exact .ok (K.less_vec h (fun v hv => K.item_vec h v (List.mem_reverse.1 hv)) (by simp))
  · refine (K.asList h).bind fun items hitems => K.ofItems fun v hv => ?_
    exact hitems v (List.mem_reverse.1 hv)

theorem keeps_same (test : Sameness) : (same test).Keeps P :=
  keeps_binary fun _ _ _ _ => .after fun _ => .ret (K.ofBool _)

/-- Removing leaves a part of the items, whichever test of sameness is used. -/
theorem keeps_remove (test : Sameness) : (remove test).Keeps P := by
  refine keeps_binary fun x _ seq hseq => (K.asList hseq).bind fun items hitems => ?_
  exact Returns.filterM.bind fun kept hkept => K.ofItems fun v hv => hitems v (hkept v hv)

theorem removeDuplicates_closed (h : P v) : Returns P (removeDuplicates v) := by
  refine (K.asList h).bind fun items hitems => distinct_mem.bind fun out hout =>
    K.ofItems fun v hv => ?_
  exact (hout v hv).elim nofun (hitems v)

theorem keeps_member (test : Sameness) : (member test).Keeps P := by
  refine keeps_binary fun x _ seq hseq => (K.asList hseq).bind fun items hitems => ?_
  exact fromFirst_mem.bind fun out hout => K.ofItems fun v hv => hitems v (hout v hv)

/-- The entry of a key is an item of the association list. -/
theorem findEntry_closed (part : Value → Except Fault Value) (test : Sameness) (key : Value)
    (h : P v) : Returns P (findEntry part test key v) := by
  refine (K.asList h).bind fun items hitems => Returns.findM?.bind fun o ho => .ret (K.getD_nil ?_)
  exact fun v hv => hitems v (List.mem_filter.1 (ho v hv)).1

theorem assoc_closed (h : P v) (key test : Value) : Returns P (assoc key v test) :=
  .ite (fun _ => .error) fun _ => findEntry_closed K _ _ _ h

/-- Either the default that was given or the rest of an entry. -/
theorem keeps_alistGet : alistGet.Keeps P := by
  refine keeps_flexible K.nil fun args ha => ?_
  dsimp only
  split
  · rename_i key alist default remove test
    have halist := ha alist (by simp)
    have hentry : ∀ entry : Value, P entry →
        Returns P (if entry.isNil then .ok default else cdr entry) :=
      fun entry he => .ite (fun _ => .ok (ha default (by simp))) fun _ => cdr_closed K he
    refine .ite (fun _ => ?_) fun _ => ?_
    · exact (findEntry_closed K _ _ _ halist).bind hentry
    · exact (assoc_closed K halist _ _).bind hentry
  · exact .error

/-- The value of a property is an item, or `nil` if there is none. -/
theorem propertyValue_closed (prop : Value) : ∀ {items : List Value}, (∀ v ∈ items, P v) →
    Returns P (propertyValue prop items)
  | [], _ => .ok K.nil
  | [_], _ => .ok K.nil
  | p :: v :: rest, h => by
    refine .after fun found => .ite (fun _ => .ret (h v (by simp))) fun _ => ?_
    exact propertyValue_closed prop fun x hx => h x (by simp [hx])

theorem plistGet_closed (h : P v) (prop test : Value) : Returns P (plistGet v prop test) :=
  .ite (fun _ => .error) fun _ => (K.asList h).bind fun _ => propertyValue_closed K prop

theorem plistMember_closed (h : P v) (prop test : Value) :
    Returns P (plistMember v prop test) := by
  refine .ite (fun _ => .error) fun _ => (K.asList h).bind fun items hitems => ?_
  exact (fromProperty_mem prop).bind fun out hout => K.ofItems fun v hv => hitems v (hout v hv)

/-- The leaves of a tree in a new list. -/
theorem flatten_closed (h : P v) : Returns P (flatten v) := by
  refine (leavesOnto_closed K h (List.forall_mem_nil _)).bind fun r hr => K.ofItems fun v hv => ?_
  exact hr v (List.mem_reverse.1 hv)

/-- A sorted vector is not longer than the vector; a sorted list is built within the bound. -/
theorem sort_closed (h : P v) (order : Value) : Returns P (sort v order) := by
  refine .after fun key => ?_
  split
  · refine sorted_mem.bind fun out hout => .ret (K.less_vec h ?_ hout.2)
    exact fun v hv => K.item_vec h v (hout.1 v hv)
  · refine (K.asList h).bind fun items hitems => sorted_mem.bind fun out hout => K.ofItems ?_
    exact fun v hv => hitems v (hout.1 v hv)

end Sequences

section Texts

/-- A slice is a part of the sequence and not longer. -/
theorem slice_mem {xs : List α} {start stop : Value} :
    Returns (fun out => (∀ x ∈ out, x ∈ xs) ∧ out.length ≤ xs.length) (slice xs start stop) := by
  refine .after fun i => .after fun j => .ite (fun _ => .ret ⟨fun x hx => ?_, ?_⟩) fun _ => .error
  · exact List.mem_of_mem_take (List.mem_of_mem_drop hx)
  · exact Nat.le_trans (List.drop_sublist _ _).length_le (List.take_sublist _ _).length_le

/-- Trimming never makes a text longer. -/
theorem trimmed_length {trim : (Char → Bool) → List Char → List Char} {cs : List Char}
    (htrim : ∀ drop, (trim drop cs).length ≤ cs.length) (regexp : Value) :
    Returns (fun less => less.length ≤ cs.length) (trimmed trim cs regexp) :=
  .ite (fun _ => .ok (htrim _)) fun _ => .error

theorem keeps_mapText (F : Value.FreelyClosed P) (f : List Char → List Char) :
    (mapText f).Keeps P :=
  keeps_unary fun _ _ => .after fun _ => .ret (F.anyStr _)

theorem keeps_string (F : Value.FreelyClosed P) : string.Keeps P :=
  fun _ _ => .after fun _ => .ret (F.anyStr _)

/-- A change of case may make a text longer, so the predicate has to be free of lengths. -/
theorem keeps_mapCase (F : Value.FreelyClosed P) (f : List Char → List Char) :
    (mapCase f).Keeps P := by
  refine keeps_unary fun a _ => ?_
  split
  · refine .after fun c => ?_
    split
    · exact .ret (F.int _)
    · exact .ret (F.int _)
  · exact .after fun _ => .ret (F.anyStr _)

/-- The joined text is not checked for its length. -/
theorem joinTexts_closed (F : Value.FreelyClosed P) (texts sep : Value) :
    Returns P (joinTexts texts sep) := by
  have hjoin : ∀ sep : List Char, Returns P (do
      return .ofChars (Text.join sep (← (← texts.asList).mapM Value.asChars))) :=
    fun sep => .after fun _ => .after fun _ => .ret (F.anyStr _)
  exact .ite (fun _ => .after hjoin) fun _ => .after hjoin

/-- Nor is the text with all replacements made. -/
theorem replaceText_closed (F : Value.FreelyClosed P) (old new whole : Value) :
    Returns P (replaceText old new whole) := by
  refine .after fun p => .ite (fun _ => .error) fun _ => ?_
  exact .after fun _ => .after fun _ => .ret (F.anyStr _)

theorem symbolName_closed (F : Value.FreelyClosed P) (v : Value) : Returns P (symbolName v) := by
  refine .ite (fun _ => .ok (F.anyStr _)) fun _ => ?_
  split
  · exact .ok (F.anyStr _)
  · exact .error

theorem keeps_alternatives (F : Value.FreelyClosed P) : alternatives.Keeps P := by
  refine keeps_flexible F.nil fun args _ => ?_
  split
  · exact .after fun _ => .after fun _ => .after fun _ => .ret (F.anyStr _)
  · exact .error

theorem charset_closed (F : Value.FreelyClosed P) (chars : Value) : Returns P (charset chars) :=
  .after fun _ => .after fun _ => .after fun _ => .ret (F.anyStr _)

include K

theorem keeps_compareNames (test : String → String → Bool) : (compareNames test).Keeps P :=
  keeps_binary fun _ _ _ _ => .after fun _ => .after fun _ => .ret (K.ofBool _)

theorem keeps_affix (test : List Char → List Char → Bool) : (affix test).Keeps P :=
  keeps_binaryOr K.nil fun _ _ _ _ _ _ => .after fun _ => .after fun _ => .ret (K.ofBool _)

/-- Unlike other mappings, reversing keeps the length. -/
theorem keeps_mapReverse : (mapText List.reverse).Keeps P :=
  keeps_unary fun _ hs => (K.asChars hs).bind fun _ hcs =>
    .ret (hcs _ (Nat.le_of_eq List.length_reverse))

/-- Joining texts is checked for the length of the result. -/
theorem concat_closed (args : List Value) : Returns P (concat args) :=
  .after fun _ => .ite (fun _ => .error) fun h => .ret (K.ofChars (Nat.le_of_not_lt h))

/-- A part of a text is not longer, and a part of a vector has its items. -/
theorem keeps_substring : substring.Keeps P := by
  refine keeps_flexible K.nil fun args ha => ?_
  split
  · have hvec := ha _ List.mem_cons_self
    refine slice_mem.bind fun out hout => .ret (K.less_vec hvec ?_ hout.2)
    exact fun v hv => K.item_vec hvec v (hout.1 v hv)
  · refine (K.asChars (ha _ List.mem_cons_self)).bind fun cs hcs => ?_
    exact slice_mem.bind fun out hout => .ret (hcs out hout.2)
  · exact .error

theorem firstChar_closed (s : Value) : Returns P (firstChar s) := by
  refine .after fun cs => ?_
  split
  · exact .ret (K.int _)
  · exact .ret (K.int _)

theorem charText_closed (c : Value) : Returns P (charText c) :=
  .after fun _ => .after fun _ => .ret (K.ofChars (by simp [maxLength]))

/-- The number of characters is bounded before the text is made. -/
theorem keeps_makeString : makeString.Keeps P := by
  refine keeps_binaryOr K.nil fun _ _ _ _ _ _ => .after fun n => .ite (fun _ => .error) fun hn => ?_
  refine .after fun _ => .after fun _ => .ret (K.ofChars ?_)
  rw [List.length_replicate]
  omega

theorem searchText_closed (needle whole start : Value) :
    Returns P (searchText needle whole start) := by
  refine .after fun n => .after fun s => .after fun p => .ite (fun _ => .ret K.nil) fun _ => ?_
  refine .ret (K.getD_nil fun v hv => ?_)
  obtain ⟨k, -, rfl⟩ := Option.map_eq_some_iff.1 hv
  exact K.int _

/-- A written number is short: integers are bounded in width and doubles have few digits. -/
theorem numberText_closed (x : Value) : Returns P (numberText x) := by
  refine .after fun n => ?_
  split
  · rename_i i
    cases hw : Text.Numeral.write i with
    | error f => exact .error
    | ok text => exact .ok (K.str (Text.Numeral.write_length hw))
  · exact .ret (K.str (Value.floatText_length _))

theorem leadingInt_closed (isDigit : Char → Bool) (base : Nat) (cs : List Char) :
    Returns P (leadingInt isDigit base cs) :=
  .ite (fun _ => .ret (K.int _)) fun _ => .after fun n => K.ofInt n

theorem parseNumber_closed (s base : Value) : Returns P (parseNumber s base) := by
  refine .after fun cs => .after fun base => .ite (fun _ => ?_) fun _ => ?_
  · split
    · exact .ret (K.float _)
    · exact leadingInt_closed K _ _ _
  · exact .ite (fun _ => .error) fun _ => leadingInt_closed K _ _ _

/-- A list of texts of which each has the predicate. -/
theorem ofTexts_closed {texts : List (List Char)} (h : ∀ t ∈ texts, P (.ofChars t)) :
    Returns P (ofTexts texts) :=
  K.ofItems (List.forall_mem_map.2 h)

/-- The pieces of a text are not longer than the text. -/
theorem keeps_splitText : splitText.Keeps P := by
  refine keeps_flexible K.nil fun args ha => ?_
  dsimp only
  split
  · refine (K.asChars (ha _ List.mem_cons_self)).bind fun cs hcs => .ite (fun _ => .error) fun _ =>
      .ite (fun _ => ?_) fun _ => ?_
    · exact ofTexts_closed K fun t ht => hcs t (Text.length_of_mem_words ht)
    · refine .after fun p => .ite (fun _ => .error) fun _ => ofTexts_closed K fun t ht => ?_
      have hsplit : t ∈ Text.split p cs := by
        split at ht
        · exact ht
        · exact (List.mem_filter.1 ht).1
      exact hcs t (Text.length_of_mem_split hsplit)
  · exact .error

theorem keeps_trimBoth : trimBoth.Keeps P := by
  refine keeps_flexible K.nil fun args ha => ?_
  split
  · refine (K.asChars (ha _ List.mem_cons_self)).bind fun cs hcs => ?_
    refine (trimmed_length (fun _ => Text.length_trimLeft_le _ _) _).bind fun less hless => ?_
    refine (trimmed_length (fun _ => Text.length_trimRight_le _ _) _).bind fun least hleast => ?_
    exact .ret (hcs least (Nat.le_trans hleast hless))
  · exact .error

theorem keeps_trimSide {trim : (Char → Bool) → List Char → List Char}
    (htrim : ∀ drop cs, (trim drop cs).length ≤ cs.length) : (trimSide trim).Keeps P := by
  refine keeps_unaryOr K.nil fun s hs regexp _ => (K.asChars hs).bind fun cs hcs => ?_
  exact (trimmed_length (fun _ => htrim _ cs) regexp).bind fun less hless => .ret (hcs less hless)

/-- A formatted text is checked for its length at the end. -/
theorem keeps_format : format.Keeps P :=
  keeps_leading fun _ _ _ _ => .after fun _ => .after fun _ =>
    .ite (fun _ => .error) fun h => .ret (K.ofChars (Nat.le_of_not_lt h))

theorem groupDepth_closed (regexp : Value) : Returns P (groupDepth regexp) :=
  .after fun _ => .ret (K.int _)

end Texts

/-- Primitives that do not look at the length of the text, list or vector that they build. -/
def growing : List String :=
  ["cons", "append", "nconc", "vector", "string", "upcase", "downcase", "capitalize", "string-join",
    "string-replace", "symbol-name", "regexp-quote", "regexp-opt-charset", "regexp-opt",
    "wildcard-to-regexp"]

section Tables

/-- What a primitive of the given name keeps: a predicate that depends on lengths only if the
primitive looks at them. -/
abbrev Entry (P : Value → Prop) (entry : String × Primitive) : Prop :=
  (entry.1 ∈ growing → Value.FreelyClosed P) → entry.2.Keeps P

theorem Entry.of_keeps {entry : String × Primitive} (h : entry.2.Keeps P) : Entry P entry :=
  fun _ => h

/-- A growing primitive may be used for predicates that are free of lengths only. -/
theorem Entry.of_growing {name : String} {f : Primitive} (hname : name ∈ growing)
    (h : Value.FreelyClosed P → f.Keeps P) : Entry P (name, f) :=
  fun hfree => h (hfree hname)

theorem keeps_arithmetic (K : Value.Closed P) : ∀ entry ∈ arithmetic, Entry P entry := by
  suffices h : ∀ entry ∈ arithmetic, entry.2.Keeps P from fun entry he => .of_keeps (h entry he)
  simp only [arithmetic, List.forall_mem_cons]
  exact ⟨keeps_sum K, keeps_difference K, keeps_product K, keeps_quotient K, keeps_remainder K,
    keeps_modulo K, keeps_successor K, keeps_predecessor K, keeps_best K _, keeps_best K _,
    keeps_magnitude K, keeps_chain K _, keeps_chain K _, keeps_chain K _, keeps_chain K _,
    keeps_chain K _, keeps_differs K, keeps_isZero K, keeps_numberSequence K, List.forall_mem_nil _⟩

theorem keeps_tests (K : Value.Closed P) : ∀ entry ∈ tests, Entry P entry := by
  suffices h : ∀ entry ∈ tests, entry.2.Keeps P from fun entry he => .of_keeps (h entry he)
  have htest : ∀ p, (test p).Keeps P := fun p => keeps_test K
  simp only [tests, List.forall_mem_cons]
  exact ⟨htest _, htest _, htest _, htest _, htest _, htest _, htest _, htest _, htest _, htest _,
    htest _, htest _, htest _, htest _, htest _, keeps_same K _, keeps_same K _, keeps_same K _,
    List.forall_mem_nil _⟩

/-- Every entry of the table, in its order; growing ones are named where they stand. -/
theorem keeps_sequences (K : Value.Closed P) : ∀ entry ∈ sequences, Entry P entry := by
  have hpath : ∀ steps : List (Value → Except Fault Value), (∀ step ∈ steps, step ∈ [car, cdr]) →
      (path steps).Keeps P := by
    have hstep : ∀ step ∈ [car, cdr], ∀ v, P v → Returns P (step v) := by
      simp only [List.forall_mem_cons]
      exact ⟨fun _ => car_closed K, fun _ => cdr_closed K, List.forall_mem_nil _⟩
    exact fun steps hs => keeps_path fun step h => hstep step (hs step h)
  have hself : (leading fun v _ => .ok v).Keeps P := keeps_leading fun v hv _ _ => .ok hv
  have hunique : (unary removeDuplicates).Keeps P := keeps_unary fun _ => removeDuplicates_closed K
  have hentry : ∀ part test, (binary (findEntry part test)).Keeps P :=
    fun part test => keeps_binary fun key _ alist ha => findEntry_closed K part test key ha
  simp only [sequences, List.forall_mem_cons]
  refine ⟨.of_keeps fun _ => K.ofItems, .of_growing (by decide) keeps_cons,
    .of_keeps (keeps_unary fun _ => car_closed K), .of_keeps (keeps_unary fun _ => cdr_closed K),
    .of_keeps (keeps_safely K fun _ => car_closed K),
    .of_keeps (keeps_safely K fun _ => cdr_closed K),
    .of_keeps (hpath _ ?_), .of_keeps (hpath _ ?_), .of_keeps (hpath _ ?_), .of_keeps (hpath _ ?_),
    .of_keeps (hpath _ ?_), .of_keeps (hpath _ ?_), .of_keeps (hpath _ ?_),
    .of_keeps (keeps_binary fun _ _ _ hx => .after fun n => nthcdr_closed K hx _),
    .of_keeps (keeps_binary fun _ _ _ hx => .after fun n => nth_closed K hx _),
    .of_keeps (keeps_binary fun _ hv index _ => element_closed K hv index),
    .of_keeps (keeps_unary fun _ _ => length_closed K),
    .of_keeps (keeps_unary fun _ _ => length_closed K),
    .of_keeps (keeps_unaryOr K.nil fun _ hv n _ => last_closed K hv n),
    .of_keeps (keeps_unaryOr K.nil fun _ hv n _ => butLast_closed K hv n),
    .of_keeps (keeps_unaryOr K.nil fun _ hv n _ => butLast_closed K hv n),
    .of_keeps (keeps_binary fun n _ _ hx => take_sequence_closed K hx n),
    .of_keeps (keeps_binary fun n _ _ hx => take_sequence_closed K hx n),
    .of_growing (by decide) keeps_append, .of_growing (by decide) keeps_append,
    .of_keeps (keeps_unary fun _ => reverse_closed K),
    .of_keeps (keeps_unary fun _ => reverse_closed K), .of_keeps (keeps_remove K _),
    .of_keeps (keeps_remove K _), .of_keeps (keeps_remove K _), .of_keeps (keeps_remove K _),
    .of_keeps hunique, .of_keeps hunique, .of_keeps hunique, .of_keeps (keeps_member K _),
    .of_keeps (keeps_member K _), .of_keeps (keeps_member K _),
    .of_keeps (keeps_binaryOr K.nil fun key _ _ ha test _ => assoc_closed K ha key test),
    .of_keeps (hentry _ _), .of_keeps (hentry _ _), .of_keeps (hentry _ _),
    .of_keeps (keeps_alistGet K),
    .of_keeps (keeps_binaryOr K.nil fun _ hv prop _ test _ => plistGet_closed K hv prop test),
    .of_keeps (keeps_binaryOr K.nil fun _ hv prop _ test _ => plistMember_closed K hv prop test),
    .of_keeps (keeps_unary fun _ => flatten_closed K), .of_keeps hself, .of_keeps hself,
    .of_keeps hself, .of_keeps hself, .of_keeps hself,
    .of_growing (by decide) fun F _ ha => .ok (F.anyVec ha),
    .of_keeps (keeps_binary fun _ hv order _ => sort_closed K hv order),
    .of_keeps (keeps_binary fun order _ _ hv => sort_closed K hv order), List.forall_mem_nil _⟩
  all_goals simp

/-- Texts are built by primitives of both kinds, see `growing`. -/
theorem keeps_texts (K : Value.Closed P) : ∀ entry ∈ texts, Entry P entry := by
  have hnames : ∀ test, (compareNames test).Keeps P := keeps_compareNames K
  have hcodes : (unary fun s => do Value.ofItems (Value.charCodes (← s.asString))).Keeps P :=
    keeps_unary fun _ _ => .after fun _ => K.ofItems (K.charCodes _)
  have hvector : (unary fun s => do return .vec (Value.charCodes (← s.asString))).Keeps P := by
    refine keeps_unary fun s hs => ?_
    cases s with
    | str text => exact .ok (K.codes hs)
    | _ => exact .error
  simp only [texts, List.forall_mem_cons]
  exact ⟨.of_keeps (hnames _), .of_keeps (hnames _), .of_keeps (hnames _), .of_keeps (hnames _),
    .of_keeps (hnames _), .of_keeps (hnames _), .of_keeps (keeps_affix K _),
    .of_keeps (keeps_affix K _),
    .of_keeps (keeps_unary fun _ _ => .after fun _ => .ret (K.ofBool _)),
    .of_keeps (keeps_mapReverse K), .of_keeps fun args _ => concat_closed K args,
    .of_keeps (keeps_substring K), .of_keeps (keeps_substring K),
    .of_growing (by decide) keeps_string,
    .of_keeps (keeps_unary fun s _ => firstChar_closed K s),
    .of_keeps (keeps_unary fun c _ => charText_closed K c), .of_keeps hcodes, .of_keeps hcodes,
    .of_keeps hvector, .of_growing (by decide) fun F => keeps_mapCase F _,
    .of_growing (by decide) fun F => keeps_mapCase F _,
    .of_growing (by decide) fun F => keeps_mapCase F _,
    .of_growing (by decide) fun F => keeps_unaryOr K.nil fun _ _ _ _ => joinTexts_closed F _ _,
    .of_keeps (keeps_makeString K),
    .of_growing (by decide) fun F => keeps_ternary (replaceText_closed F),
    .of_keeps (keeps_binaryOr K.nil fun _ _ _ _ _ _ => searchText_closed K _ _ _),
    .of_keeps (keeps_unary fun x _ => numberText_closed K x),
    .of_keeps (keeps_unaryOr K.nil fun _ _ _ _ => parseNumber_closed K _ _),
    .of_growing (by decide) fun F => keeps_unary fun v _ => symbolName_closed F v,
    .of_keeps (keeps_splitText K), .of_keeps (keeps_trimBoth K),
    .of_keeps (keeps_trimSide K Text.length_trimLeft_le),
    .of_keeps (keeps_trimSide K Text.length_trimRight_le), .of_keeps (keeps_format K),
    .of_keeps (keeps_format K), List.forall_mem_nil _⟩

theorem keeps_regexps (K : Value.Closed P) : ∀ entry ∈ regexps, Entry P entry := by
  simp only [regexps, List.forall_mem_cons]
  exact ⟨.of_growing (by decide) fun F => keeps_mapText F _,
    .of_growing (by decide) fun F => keeps_unary fun cs _ => charset_closed F cs,
    .of_growing (by decide) keeps_alternatives,
    .of_keeps (keeps_unary fun r _ => groupDepth_closed K r),
    .of_growing (by decide) fun F => keeps_mapText F _, List.forall_mem_nil _⟩

/-- Every primitive keeps every closed predicate, the growing ones if it is free of lengths. -/
theorem keeps_named (K : Value.Closed P) {name : String} {f : Primitive} (h : named? name = some f)
    (hfree : name ∈ growing → Value.FreelyClosed P) : f.Keeps P := by
  have hall : ∀ entry ∈ all, Entry P entry := by
    simp only [all, List.forall_mem_append]
    exact ⟨⟨⟨⟨keeps_arithmetic K, keeps_tests K⟩, keeps_sequences K⟩, keeps_texts K⟩,
      keeps_regexps K⟩
  exact hall _ (mem_of_named? h) hfree

end Tables

end Primitive

end PatternLint

/-! What primitives make is made of what their arguments are made of. -/

namespace PatternLint

variable {m : Material} {v : Value}

/-- Being made of a material does not depend on any length. -/
theorem Value.MadeOf.freelyClosed : Value.FreelyClosed (Value.MadeOf m) where
  nil := .nil
  t := .sym m.symbol_t
  int _ := .int
  float _ := .float
  str _ := .str
  list h hne _ := .list h fun _ => hne
  item_list h := (madeOf_list.1 h).1
  item_dotted h := (madeOf_dotted.1 h).1
  tail_dotted h := (madeOf_dotted.1 h).2.1
  item_vec h := madeOf_vec.1 h
  less_str _ _ := .str
  drop_list h n := .ofList fun v hv => (madeOf_list.1 h).1 v (List.mem_of_mem_drop hv)
  drop_dotted h hn := by
    obtain ⟨hitems, htail, hp⟩ := madeOf_dotted.1 h
    refine .dotted (fun v hv => hitems v (List.mem_of_mem_drop hv)) htail fun hm => ⟨?_, (hp hm).2⟩
    rw [Ne, List.drop_eq_nil_iff]
    omega
  less_vec _ h _ := .vec h
  codes _ := .vec (MadeOf.charCodes _)
  anyStr _ := .str
  anyVec h := .vec h
  prepend h hv := .prepend h hv

namespace Primitive

/-- Values of one material are taken to values of that material. -/
def Composes (m : Material) (f : Primitive) : Prop :=
  f.Keeps (Value.MadeOf m)

theorem car_madeOf (h : v.MadeOf m) : Returns (Value.MadeOf m) (car v) :=
  car_closed Value.MadeOf.freelyClosed.toClosed h

theorem cdr_madeOf (h : v.MadeOf m) : Returns (Value.MadeOf m) (cdr v) :=
  cdr_closed Value.MadeOf.freelyClosed.toClosed h

theorem concat_madeOf (args : List Value) : Returns (Value.MadeOf m) (concat args) :=
  concat_closed Value.MadeOf.freelyClosed.toClosed args

theorem composes_append : append.Composes m :=
  keeps_append Value.MadeOf.freelyClosed

/-- Every primitive makes values of the material that its arguments are made of. -/
theorem composes_named {name : String} {f : Primitive} (h : named? name = some f) : f.Composes m :=
  keeps_named Value.MadeOf.freelyClosed.toClosed h fun _ => Value.MadeOf.freelyClosed

end Primitive

end PatternLint
