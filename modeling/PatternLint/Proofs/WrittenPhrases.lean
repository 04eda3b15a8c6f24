import PatternLint.Proofs.WrittenAlternatives

/-! Written regexps are phrases of their precedence, provided that the symbols, sets and sequences
of a form are written as phrases. -/

namespace PatternLint.Rx

open Pattern.Regexp

/-- The text of an item is a phrase of its precedence. -/
def Held (may : Issue → Prop) (anchored : Prop) (item : Item) : Prop :=
  ∃ opens closes, Phrase may anchored item.precedence opens closes item.text

/-- The text of an item opens with a line start that no brackets hide in a sequence. -/
def ShowsStart (may : Issue → Prop) (anchored : Prop) (item : Item) : Prop :=
  item.precedence ≠ .alt ∧ ∃ closes, Phrase may anchored item.precedence true closes item.text

/-- The text of an item closes with a line end that no brackets hide in a sequence. -/
def ShowsEnd (may : Issue → Prop) (anchored : Prop) (item : Item) : Prop :=
  item.precedence ≠ .alt ∧ ∃ opens, Phrase may anchored item.precedence opens true item.text

/-- Items that leave a trace in a sequence. -/
def present (items : List Item) : List Item :=
  items.filter fun i => !i.isEmpty

/-- Where an item of a sequence opens with a line start without being the first, or closes with a
line end without being the last, this may be reported. -/
structure Joinable (may : Issue → Prop) (anchored : Prop) (items : List Item) : Prop where
  opens : ∀ i ∈ (present items).tail, ShowsStart may anchored i → may (.unescaped '^')
  closes : ∀ i ∈ (present items).dropLast, ShowsEnd may anchored i → may (.unescaped '$')

section
variable {may : Issue → Prop} {anchored : Prop} {item : Item} {items : List Item}

/-- A phrase that shows neither end is held whatever stands beside it. -/
theorem held_false (h : Phrase may anchored item.precedence false false item.text) :
    Held may anchored item :=
  ⟨false, false, h⟩

/-! ### Items put together -/

/-- An item where a sequence is needed; brackets hide how it opens and closes. -/
theorem Held.atLeast_seq (h : Held may anchored item) :
    ∃ opens closes, Phrase may anchored .seq opens closes (item.atLeast .seq) ∧
      (opens = true → ShowsStart may anchored item) ∧
      (closes = true → ShowsEnd may anchored item) := by
  obtain ⟨opens, closes, hphrase⟩ := h
  obtain ⟨text, precedence⟩ := item
  cases precedence with
  | alt => exact ⟨false, false, .loose (phrase_group hphrase), nofun, nofun⟩
  | seq =>
    refine ⟨opens, closes, hphrase, ?_, ?_⟩
    · rintro rfl
      exact ⟨nofun, closes, hphrase⟩
    · rintro rfl
      exact ⟨nofun, opens, hphrase⟩
  | atom =>
    refine ⟨opens, closes, hphrase.loosen, ?_, ?_⟩
    · rintro rfl
      exact ⟨nofun, closes, hphrase⟩
    · rintro rfl
      exact ⟨nofun, opens, hphrase⟩

/-- As an atom it is bracketed where needed, so that its ends do not show. -/
theorem Held.atLeast_atom (h : Held may anchored item) :
    Phrase may anchored .atom false false (item.atLeast .atom) := by
  obtain ⟨opens, closes, hphrase⟩ := h
  obtain ⟨text, precedence⟩ := item
  cases precedence with
  | alt => exact phrase_group hphrase
  | seq => exact phrase_group hphrase
  | atom =>
    obtain ⟨rfl, rfl⟩ := hphrase.atom_flags
    exact hphrase

theorem atLeast_ne_nil {p : Precedence} (h : item.isEmpty = false) : item.atLeast p ≠ [] := by
  unfold Item.atLeast
  split
  · exact List.isEmpty_eq_false_iff.mp h
  · exact List.append_ne_nil_of_right_ne_nil _ (by decide)

/-- Phrases are joined from the left; the ends that show are those of the first and the last. -/
theorem phrase_flatMap {first : Item} {rest : List Item}
    (h : ∀ i ∈ first :: rest, Held may anchored i) (hne : ∀ i ∈ first :: rest, i.isEmpty = false)
    (hopens : ∀ i ∈ rest, ShowsStart may anchored i → may (.unescaped '^'))
    (hcloses : ∀ i ∈ (first :: rest).dropLast, ShowsEnd may anchored i → may (.unescaped '$')) :
    ∃ opens closes,
      Phrase may anchored .seq opens closes ((first :: rest).flatMap (·.atLeast .seq)) ∧
      (opens = true → ShowsStart may anchored first) := by
  induction rest generalizing first with
  | nil =>
    obtain ⟨opens, closes, hphrase, hstart, -⟩ := (h first List.mem_cons_self).atLeast_seq
    exact ⟨opens, closes, by simpa using hphrase, hstart⟩
  | cons second rest ih =>
    obtain ⟨hfirst, hrest⟩ := List.forall_mem_cons.mp h
    obtain ⟨hne, hne'⟩ := List.forall_mem_cons.mp hne
    obtain ⟨hopen, hopens⟩ := List.forall_mem_cons.mp hopens
    rw [List.dropLast_cons_of_ne_nil (List.cons_ne_nil _ _)] at hcloses
    obtain ⟨hclose, hcloses⟩ := List.forall_mem_cons.mp hcloses
    obtain ⟨opens, inner, ha, hstart, hend⟩ := hfirst.atLeast_seq
    obtain ⟨inner', closes, hb, hstart'⟩ := ih hrest hne' hopens hcloses
    refine ⟨opens, closes, ?_, hstart⟩
    have hb' : (second :: rest).flatMap (·.atLeast .seq) ≠ [] :=
      List.append_ne_nil_of_left_ne_nil (atLeast_ne_nil (hne' _ List.mem_cons_self)) _
    exact .append ha hb (atLeast_ne_nil hne) hb' (fun hc => hclose (hend hc))
      fun ho => hopen (hstart' ho)

/-- A sequence is held if its neighbours may stand side by side. -/
theorem held_sequence (h : ∀ i ∈ items, Held may anchored i) (hjoin : Joinable may anchored items) :
    Held may anchored (sequence items) := by
  have hpresent : ∀ i ∈ present items, Held may anchored i ∧ i.isEmpty = false := fun i hi => by
    obtain ⟨hmem, hne⟩ := List.mem_filter.mp hi
    exact ⟨h i hmem, by simpa using hne⟩
  obtain ⟨hopens, hcloses⟩ := hjoin
  unfold sequence
  split
  · exact held_false .empty
  · rename_i item heq
    have hmem : item ∈ present items := List.mem_of_mem_head? (congrArg List.head? heq)
    exact (hpresent item hmem).1
  · rename_i hne _
    change Held may anchored ⟨(present items).flatMap (·.atLeast .seq), .seq⟩
    replace hne : present items ≠ [] := hne
    generalize present items = items at *
    obtain ⟨first, rest, rfl⟩ := List.exists_cons_of_ne_nil hne
    obtain ⟨opens, closes, hphrase, -⟩ := phrase_flatMap (fun i hi => (hpresent i hi).1)
      (fun i hi => (hpresent i hi).2) hopens hcloses
    exact ⟨opens, closes, hphrase⟩

/-- Alternatives are separated, so each may show its ends. -/
theorem held_choice (h : ∀ i ∈ items, Held may anchored i) : Held may anchored (choice items) := by
  unfold choice
  split
  · exact held_false phrase_unmatchable
  · exact h _ List.mem_cons_self
  · rename_i hnil hsingle
    match items with
    | [] => exact absurd rfl hnil
    | [item] => exact absurd rfl (hsingle item)
    | a :: b :: more =>
      have hparts : ∀ t ∈ (a :: b :: more).map Item.text,
          ∃ p opens closes, Phrase may anchored p opens closes t :=
        List.forall_mem_map.mpr fun i hi => ⟨_, h i hi⟩
      exact phrase_alternation hparts

/-- A mark of repetition applies to a whole atom. -/
theorem Held.repeated (h : Held may anchored item) {mark : List Char} (hmark : Mark mark) :
    Held may anchored (repeated item mark) := by
  unfold Rx.repeated
  split
  · exact h
  · exact held_false (.repeated h.atLeast_atom hmark)

/-- Inside of a group the ends do not show. -/
theorem Held.grouped (h : Held may anchored item) {number : Option (List Char)}
    (hnumber : ∀ digits, number = some digits → ∃ n, Counts n digits) :
    Held may anchored (grouped number item) := by
  obtain ⟨opens, closes, hphrase⟩ := h
  refine held_false ?_
  unfold Rx.grouped
  cases number with
  | none => simpa using Phrase.group .plain hphrase
  | some digits =>
    obtain ⟨n, hcounts⟩ := hnumber digits rfl
    simpa using Phrase.group (.numbered hcounts) hphrase

/-! ### Forms -/

/-- What follows the operator of a form. -/
def arguments : Value → List Value
  | .list (_ :: args) => args
  | _ => []

def operator? : Value → Option Operator
  | .list (head :: _) => (operatorName head).toOption.bind fun name => operators.lookup name
  | _ => none

/-- The forms among the arguments of an operator that it puts in sequence. -/
def sequenced (operator : Operator) (args : List Value) : List Value :=
  match operator, args with
  | .seq, body | .many _ _, body | .group, body => body
  | .exactly, _ :: body | .atLeast, _ :: body | .numberedGroup, _ :: body => body
  | .between, _ :: _ :: body => body
  | .counted, _ :: .int _ :: body => body
  | .counted, _ :: body => body
  | _, _ => []

/-- A form, its arguments and theirs. -/
inductive Throughout (P : Value → Prop) : Value → Prop
  | mk {form : Value} (h : P form) (hargs : ∀ a ∈ arguments form, Throughout P a) :
      Throughout P form

theorem Throughout.here {P : Value → Prop} {form : Value} (h : Throughout P form) : P form := by
  obtain ⟨h, -⟩ := h
  exact h

/-- A property of a form may be concluded from one of the form and its arguments. -/
theorem Throughout.imp {P Q : Value → Prop} {form : Value} (h : Throughout P form)
    (hPQ : ∀ form, P form → (∀ a ∈ arguments form, P a) → Q form) : Throughout Q form := by
  induction h with
  | mk h hargs ih => exact ⟨hPQ _ h fun a ha => (hargs a ha).here, ih⟩

/-- A form has it throughout if it has it and its arguments have it throughout. -/
@[simp] theorem throughout_list {P : Value → Prop} {head : Value} {args : List Value} :
    Throughout P (.list (head :: args)) ↔
      P (.list (head :: args)) ∧ ∀ a ∈ args, Throughout P a :=
  ⟨fun ⟨h, hargs⟩ => ⟨h, hargs⟩, fun ⟨h, hargs⟩ => ⟨h, hargs⟩⟩

@[simp] theorem throughout_str {P : Value → Prop} {text : String} :
    Throughout P (.str text) ↔ P (.str text) :=
  ⟨fun h => h.here, fun h => ⟨h, nofun⟩⟩

@[simp] theorem throughout_sym {P : Value → Prop} {name : String} :
    Throughout P (.sym name) ↔ P (.sym name) :=
  ⟨fun h => h.here, fun h => ⟨h, nofun⟩⟩

@[simp] theorem throughout_int {P : Value → Prop} {n : Int} : Throughout P (.int n) ↔ P (.int n) :=
  ⟨fun h => h.here, fun h => ⟨h, nofun⟩⟩

@[simp] theorem operator?_str {text : String} : operator? (.str text) = none :=
  rfl

@[simp] theorem operator?_sym {name : String} : operator? (.sym name) = none :=
  rfl

/-- What an operator and its arguments are to bring with them to be written as a phrase, apart from
what the arguments bring that are forms. -/
structure Suits (may : Issue → Prop) (anchored : Prop) (operator : Operator) (args : List Value) :
    Prop where
  given : operator ≠ .regexp
  set : operator = .set → ∀ set item, CharSet.ofArguments args = .ok set →
    set.render false = .ok item → Held may anchored item
  complement : operator = .not → ∀ arg set item, args = [arg] → operator? arg = some .set →
    CharSet.ofArguments (arguments arg) = .ok set → set.render true = .ok item →
    Held may anchored item
  negation : operator = .not → ∀ arg item, args = [arg] → negateAtom arg = .ok item →
    Held may anchored item
  joinable : ∀ greedy items, writeAll greedy (sequenced operator args) = .ok items →
    Joinable may anchored items

structure Fit (may : Issue → Prop) (anchored : Prop) (form : Value) : Prop where
  symbol : ∀ name item, form = .sym name → symbolItem name = .ok item → Held may anchored item
  operator : ∀ operator, operator? form = some operator →
    Suits may anchored operator (arguments form)

variable {form arg head : Value} {args : List Value} {greedy : Bool} {name : String}
  {operator : Operator}

theorem operator?_list (hname : operatorName head = .ok name)
    (hoperator : operators.lookup name = some operator) :
    operator? (.list (head :: args)) = some operator := by
  simp [operator?, hname, Except.toOption, hoperator]

/-- A single token may be repeated unless it matches nothing. -/
theorem held_atom {operand : Operand} {text : List Char} (h : OneToken may operand text)
    (hoperand : Repeatable may operand) : Held may anchored ⟨text, .atom⟩ :=
  held_false (.token h hoperand)

/-- The operators whose arguments are no forms of their own. -/
theorem held_writeAtom? (h : writeAtom? operator args = some (.ok item))
    (hgiven : operator ≠ .regexp)
    (hset : operator = .set → ∀ set item, CharSet.ofArguments args = .ok set →
      set.render false = .ok item → Held may anchored item) : Held may anchored item := by
  unfold writeAtom? at h
  split at h
  · obtain ⟨texts, -, h⟩ := Option.map_eq_some_iff.mp h
    split at h
    · cases h
      exact held_choice nofun
    · exact held_false (phrase_stringChoice h)
  · obtain ⟨set, hargs, h⟩ := except_bind_eq_ok.mp (Option.some.inj h)
    exact hset rfl set item hargs h
  · obtain ⟨n, -, h⟩ := except_bind_eq_ok.mp (Option.some.inj h)
    dsimp only at h
    split at h
    · cases h
    · rename_i hn
      obtain ⟨digits, hdigits, h⟩ := except_bind_eq_ok.mp h
      cases h
      exact held_atom (oneToken_backReference (by omega) (by omega) hdigits) (.inl rfl)
  · obtain ⟨code, hcode, h⟩ := except_bind_eq_ok.mp (Option.some.inj h)
    cases h
    obtain ⟨c, hc, rfl⟩ := syntaxCode_mem hcode
    exact held_atom (oneToken_syntaxClass (.inl rfl) hc) (.inl rfl)
  · obtain ⟨code, hcode, h⟩ := except_bind_eq_ok.mp (Option.some.inj h)
    cases h
    obtain ⟨c, rfl⟩ := categoryCode_length hcode
    exact held_atom (oneToken_category (.inl rfl) c) (.inl rfl)
  · cases h
    exact held_false (phrase_literal _)
  · exact absurd rfl hgiven
  · cases h

/-- The operators that join the items of all their arguments. -/
theorem held_join {join : List Item → Item} (hjoin : operator.join? greedy = some join)
    (hop : ∀ op follows, operator = .many op follows → op ∈ ['*', '+', '?'])
    (h : ∀ i ∈ items, Held may anchored i)
    (hitems : operator ≠ .or → Joinable may anchored items) : Held may anchored (join items) := by
  cases operator with
  | seq =>
    cases hjoin
    exact held_sequence h (hitems nofun)
  | or =>
    cases hjoin
    exact held_choice h
  | many op follows =>
    cases hjoin
    exact (held_sequence h (hitems nofun)).repeated (.many _ (hop _ _ rfl))
  | group =>
    cases hjoin
    exact (held_sequence h (hitems nofun)).grouped nofun
  | _ => cases hjoin

/-- The marks of repetition without bounds. -/
theorem many_mark {op : Char} {follows : Bool}
    (h : operators.lookup name = some (.many op follows)) : op ∈ ['*', '+', '?'] := by
  have hall : ∀ e ∈ operators, (match e.2 with
    | .many op _ => ['*', '+', '?'].contains op
    | _ => true) = true := by decide
  obtain ⟨before, after, heq, -⟩ := List.lookup_eq_some_iff.mp h
  have hop := hall _ (heq ▸ List.mem_append_right _ List.mem_cons_self)
  exact List.contains_iff_mem.mp hop

/-- Operators but alternatives put their arguments one after the other. -/
theorem sequenced_join {join : List Item → Item} (h : operator.join? greedy = some join)
    (hor : operator ≠ .or) : sequenced operator args = args := by
  cases operator <;> first | rfl | exact absurd rfl hor | cases h

theorem sequenced_counted {n : Value} (h : ∀ m rest, args = .int m :: rest → False) :
    sequenced .counted (n :: args) = args := by
  cases args with
  | nil => rfl
  | cons v rest =>
    cases v with
    | int m => exact (h m rest rfl).elim
    | _ => rfl

/-- The items of a bounded repetition. -/
theorem held_bounded {low : Nat} {high : Option Nat} {body : Except Fault (List Item)}
    (hw : (do
      let operand := sequence (← body)
      return repeated operand (← boundMark low high)) = .ok item)
    (h : ∀ items, body = .ok items →
      (∀ i ∈ items, Held may anchored i) ∧ Joinable may anchored items) :
        Held may anchored item := by
  obtain ⟨items, hitems, hw⟩ := except_bind_eq_ok.mp hw
  obtain ⟨mark, hmark, hw⟩ := except_bind_eq_ok.mp hw
  cases hw
  obtain ⟨hall, hjoin⟩ := h items hitems
  exact (held_sequence hall hjoin).repeated (.bound hmark)

end

mutual

/-- A form that brings all that is needed is written as a phrase. -/
theorem write_held {may : Issue → Prop} {anchored : Prop} {item : Item} (greedy : Bool)
    (form : Value) (h : Throughout (Fit may anchored) form) (hw : write greedy form = .ok item) :
    Held may anchored item := by
  obtain ⟨hfit, hall⟩ := h
  rw [write.eq_def] at hw
  split at hw
  case h_1 text =>
    cases hw
    split
    · exact held_false .empty
    · exact held_false (phrase_literal _)
  case h_2 n =>
    obtain ⟨c, -, hw⟩ := except_bind_eq_ok.mp hw
    cases hw
    exact held_atom (oneToken_quoteChar may c) (.inl rfl)
  case h_3 name => exact hfit.symbol name item rfl hw
  case h_6 head args =>
    obtain ⟨name, hname, hw⟩ := except_bind_eq_ok.mp hw
    split at hw
    · cases hw
    rename_i operator hlookup
    have hsuits : Suits may anchored operator args :=
      hfit.operator operator (operator?_list hname hlookup)
    split at hw
    · rename_i hatom
      subst hw
      exact held_writeAtom? hatom hsuits.given hsuits.set
    split at hw
    · rename_i join hjoin
      obtain ⟨items, hitems, hw⟩ := except_bind_eq_ok.mp hw
      cases hw
      refine held_join hjoin ?_ (writeAll_held greedy args hall hitems) fun hor => ?_
      · rintro op follows rfl
        exact many_mark hlookup
      · exact hsuits.joinable greedy items (by rwa [sequenced_join hjoin hor])
    · exact writeBy_held greedy name operator args hsuits hall hw
  all_goals cases hw
termination_by sizeOf form
decreasing_by all_goals subst_vars; simp only [Value.list.sizeOf_spec, List.cons.sizeOf_spec]; omega

/-- An operator joins what it has written of its arguments. -/
theorem writeBy_held {may : Issue → Prop} {anchored : Prop} {item : Item} (greedy : Bool)
    (name : String) (operator : Operator) (args : List Value)
    (hsuits : Suits may anchored operator args) (hall : ∀ a ∈ args, Throughout (Fit may anchored) a)
    (hw : writeBy greedy name operator args = .ok item) : Held may anchored item := by
  have hjoin {body : List Value} {items : List Item} (hbody : sequenced operator args = body)
      (hitems : writeAll greedy body = .ok items) : Joinable may anchored items :=
    hsuits.joinable greedy items (by rwa [hbody])
  rw [writeBy.eq_def] at hw
  split at hw
  case h_1 arg => exact negate_held greedy arg hsuits (hall arg List.mem_cons_self) hw
  case h_2 n body =>
    obtain ⟨n, -, hw⟩ := except_bind_eq_ok.mp hw
    exact held_bounded hw fun items hitems =>
      ⟨writeAll_held greedy body (fun a ha => hall a (by simp [ha])) hitems, hjoin rfl hitems⟩
  case h_3 n body =>
    obtain ⟨n, -, hw⟩ := except_bind_eq_ok.mp hw
    exact held_bounded hw fun items hitems =>
      ⟨writeAll_held greedy body (fun a ha => hall a (by simp [ha])) hitems, hjoin rfl hitems⟩
  case h_4 n m body =>
    obtain ⟨n, -, hw⟩ := except_bind_eq_ok.mp hw
    obtain ⟨m, -, hw⟩ := except_bind_eq_ok.mp hw
    exact held_bounded hw fun items hitems =>
      ⟨writeAll_held greedy body (fun a ha => hall a (by simp [ha])) hitems, hjoin rfl hitems⟩
  case h_5 n m body =>
    obtain ⟨n, -, hw⟩ := except_bind_eq_ok.mp hw
    obtain ⟨m, -, hw⟩ := except_bind_eq_ok.mp hw
    exact held_bounded hw fun items hitems =>
      ⟨writeAll_held greedy body (fun a ha => hall a (by simp [ha])) hitems, hjoin rfl hitems⟩
  case h_6 n body hbody =>
    obtain ⟨n, -, hw⟩ := except_bind_eq_ok.mp hw
    exact held_bounded hw fun items hitems =>
      ⟨writeAll_held greedy body (fun a ha => hall a (by simp [ha])) hitems,
        hjoin (sequenced_counted hbody) hitems⟩
  case h_7 n body =>
    obtain ⟨n, -, hw⟩ := except_bind_eq_ok.mp hw
    dsimp only at hw
    split at hw
    · cases hw
    obtain ⟨number, hnumber, hw⟩ := except_bind_eq_ok.mp hw
    obtain ⟨items, hitems, hw⟩ := except_bind_eq_ok.mp hw
    cases hw
    have hheld := writeAll_held greedy body (fun a ha => hall a (by simp [ha])) hitems
    refine (held_sequence hheld (hjoin rfl hitems)).grouped fun digits hdigits => ?_
    cases hdigits
    exact ⟨n, countText_counts hnumber⟩
  case h_8 arg => exact write_held false arg (hall arg List.mem_cons_self) hw
  case h_9 arg => exact write_held true arg (hall arg List.mem_cons_self) hw
  case h_10 => cases hw
termination_by sizeOf args
decreasing_by all_goals subst_vars; simp only [List.cons.sizeOf_spec]; omega

/-- A negation is that of a set, of a class or of a single character. -/
theorem negate_held {may : Issue → Prop} {anchored : Prop} {item : Item} (greedy : Bool)
    (arg : Value) (hsuits : Suits may anchored .not [arg]) (h : Throughout (Fit may anchored) arg)
    (hw : negate greedy arg = .ok item) : Held may anchored item := by
  rw [negate.eq_def] at hw
  split at hw
  · rename_i name args
    split at hw
    case h_1 hlookup =>
      obtain ⟨set, hset, hw⟩ := except_bind_eq_ok.mp hw
      exact hsuits.complement rfl _ set item rfl (operator?_list rfl hlookup) hset hw
    case h_2 inner _ =>
      obtain ⟨-, hall⟩ := h
      exact write_held greedy inner (hall inner List.mem_cons_self) hw
    case h_3 =>
      obtain ⟨code, hcode, hw⟩ := except_bind_eq_ok.mp hw
      cases hw
      obtain ⟨c, hc, rfl⟩ := syntaxCode_mem hcode
      exact held_atom (oneToken_syntaxClass (.inr rfl) hc) (.inl rfl)
    case h_4 =>
      obtain ⟨code, hcode, hw⟩ := except_bind_eq_ok.mp hw
      cases hw
      obtain ⟨c, rfl⟩ := categoryCode_length hcode
      exact held_atom (oneToken_category (.inr rfl) c) (.inl rfl)
    case h_5 => cases hw
  · exact hsuits.negation rfl arg item rfl hw
termination_by sizeOf arg
decreasing_by all_goals subst_vars; simp only [Value.list.sizeOf_spec, List.cons.sizeOf_spec]; omega

/-- Each form is written by itself. -/
theorem writeAll_held {may : Issue → Prop} {anchored : Prop} {items : List Item} (greedy : Bool)
    (forms : List Value) (h : ∀ form ∈ forms, Throughout (Fit may anchored) form)
    (hw : writeAll greedy forms = .ok items) : ∀ i ∈ items, Held may anchored i := by
  rw [writeAll.eq_def] at hw
  split at hw
  · cases hw
    exact nofun
  · rename_i form rest
    obtain ⟨item, hitem, hw⟩ := except_bind_eq_ok.mp hw
    obtain ⟨items, hitems, hw⟩ := except_bind_eq_ok.mp hw
    cases hw
    obtain ⟨hform, hrest⟩ := List.forall_mem_cons.mp h
    exact List.forall_mem_cons.mpr ⟨write_held greedy form hform hitem,
      writeAll_held greedy rest hrest hitems⟩
termination_by sizeOf forms
decreasing_by all_goals subst_vars; simp only [List.cons.sizeOf_spec]; omega

end

/-! ### Forms in sequence -/

section
variable {may : Issue → Prop} {anchored : Prop} {forms : List Value} {r : String}

/-- Forms in sequence are written as the form that puts them in sequence. -/
theorem ofForms_eq_ok (h : ofForms forms = .ok r) :
    ∃ item, write true (.list (.sym "seq" :: forms)) = .ok item ∧ r.toList = item.text := by
  obtain ⟨items, hitems, h⟩ := except_bind_eq_ok.mp h
  cases h
  refine ⟨sequence items, ?_, String.toList_ofList⟩
  rw [write, operatorName, hitems]
  rfl

/-- A regexp that is written has no issues but those that are allowed. -/
theorem ofForms_lint (h : Throughout (Fit may anchored) (.list (.sym "seq" :: forms)))
    (hw : ofForms forms = .ok r) :
    ∃ issues, lint r.toList = .ok issues ∧ ∀ i ∈ issues, may i.2 := by
  obtain ⟨item, hitem, htext⟩ := ofForms_eq_ok hw
  obtain ⟨opens, closes, hphrase⟩ := write_held true _ h hitem
  exact htext ▸ hphrase.lint_eq

end

/-! ### Symbols and sets that may be reported -/

section
variable {may : Issue → Prop} {anchored : Prop} {item : Item} {name : String}

theorem oneToken_dot : OneToken may .item ['.'] :=
  oneToken_of_step (fun _ _ _ _ => rfl) (by decide) (by decide)

theorem oneToken_nonWord : OneToken may .item ['\\', 'W'] :=
  oneToken_of_step (fun _ _ _ _ => rfl) (by decide) (by decide)

/-- Symbols are written as one token, as a set or as a sequence of tokens. -/
theorem symbols_kinds {text : String} {precedence : Precedence}
    (h : symbols.lookup name = some (text, precedence)) :
    (precedence = .atom ∧ (text.toList ∈ emptyMatches ∨ text.toList = ['.'] ∨
      text.toList = ['\\', 'W'] ∨ text.toList = anyChar)) ∨
    (precedence = .seq ∧
      (text.toList = unmatchable ∨ text.toList = ['^'] ∨ text.toList = ['$'])) := by
  have hall : ∀ e ∈ symbols,
      (e.2.2 = .atom ∧ (e.2.1.toList ∈ emptyMatches ∨ e.2.1.toList = ['.'] ∨
        e.2.1.toList = ['\\', 'W'] ∨ e.2.1.toList = anyChar)) ∨
      (e.2.2 = .seq ∧
        (e.2.1.toList = unmatchable ∨ e.2.1.toList = ['^'] ∨ e.2.1.toList = ['$'])) := by
    decide +kernel
  obtain ⟨before, after, heq, -⟩ := List.lookup_eq_some_iff.mp h
  exact hall _ (heq ▸ List.mem_append_right _ List.mem_cons_self)

theorem held_symbol (hmay : Lenient may) (hanchored : anchored) (h : symbolItem name = .ok item) :
    Held may anchored item := by
  unfold symbolItem at h
  split at h
  · rename_i text precedence hlookup
    cases h
    obtain ⟨rfl, htext⟩ | ⟨rfl, htext⟩ := symbols_kinds hlookup
    · obtain htext | htext | htext | htext := htext
      · exact held_atom (oneToken_emptyMatch htext) (hmay.repeatable nofun)
      · rw [htext]
        exact held_atom oneToken_dot (.inl rfl)
      · rw [htext]
        exact held_atom oneToken_nonWord (.inl rfl)
      · rw [htext]
        exact held_atom (oneToken_anyChar (hmay.set _)) (.inl rfl)
    · obtain htext | htext | htext := htext
      · rw [htext]
        exact held_false phrase_unmatchable
      · rw [htext]
        exact ⟨true, false, .lineStart hanchored⟩
      · rw [htext]
        exact ⟨false, true, .lineEnd hanchored⟩
  · split at h
    · rename_i hclass
      cases h
      exact held_atom (oneToken_class (className?_known hclass) false) (.inl rfl)
    · cases h

/-- A set of one character is written as the character, quoted where needed. -/
theorem held_single {code : Int} (hmay : IsCode code ∨ ∀ issue, may (.set issue))
    (h : CharSet.render ⟨[(code, code)], []⟩ true = .ok item) : Held may anchored item := by
  have hset : Apart [(code, code)] := ⟨by simp, List.pairwise_singleton _ _⟩
  have hclear : ¬ CharSet.StrayHyphen ⟨[(code, code)], []⟩ := by
    simp only [CharSet.StrayHyphen, List.mem_singleton, Prod.mk.injEq]
    omega
  have hall : true = true → CharSet.mk [(code, code)] [] = ⟨[], []⟩ → may allReversed := by simp
  refine held_false (phrase_render h hset (by simp) hclear hall (hmay.imp_left fun hcode => ?_))
  exact ⟨hset, by simpa using hcode, by simp⟩

/-- The negation of something that is not a form. -/
theorem held_negateAtom {arg : Value} (h : negateAtom arg = .ok item)
    (hboundary : arg = .sym "word-boundary" → Repeatable may .nothing)
    (hmay : (∀ code, charCode arg = .ok code → IsCode code) ∨ ∀ issue, may (.set issue)) :
    Held may anchored item := by
  have hsingle (h : (do
      let code ← charCode arg
      CharSet.render ⟨[(code, code)], []⟩ true) = .ok item) : Held may anchored item := by
    obtain ⟨code, hcode, h⟩ := except_bind_eq_ok.mp h
    exact held_single (hmay.imp_left fun hall => hall code hcode) h
  unfold negateAtom at h
  split at h
  · rename_i name
    split at h
    · rename_i hclass
      cases h
      exact held_atom (oneToken_class (className?_known hclass) true) (.inl rfl)
    · split at h
      · rename_i hname
        cases h
        exact held_atom (oneToken_emptyMatch (by decide)) (hboundary (hname ▸ rfl))
      · cases h
  · exact hsingle h
  · split at h
    · exact hsingle h
    · cases h
  · cases h

/-- Where sets and repetitions may be reported, sets have to be written as they are meant. -/
theorem Lenient.suits (hmay : Lenient may) {operator : Operator} {args : List Value}
    (hgiven : operator ≠ .regexp)
    (hset : operator = .set → ∀ set, CharSet.ofArguments args = .ok set → ¬ set.StrayHyphen)
    (hargs : ∀ arg ∈ args, operator? arg = some .set → ∀ set,
      CharSet.ofArguments (arguments arg) = .ok set → ¬ set.StrayHyphen)
    (hjoin : ∀ greedy items, writeAll greedy (sequenced operator args) = .ok items →
      Joinable may anchored items) : Suits may anchored operator args where
  given := hgiven
  set hop set _ hset' h := held_false (phrase_render h (apart_ofArguments hset')
    (known_ofArguments hset') (hset hop set hset') nofun (.inr hmay.set))
  complement _ arg set _ harg hop hset' h := held_false (phrase_render h (apart_ofArguments hset')
    (known_ofArguments hset') (hargs arg (harg ▸ List.mem_cons_self) hop set hset')
    (fun _ _ => hmay.set _) (.inr hmay.set))
  negation _ _ _ _ h := held_negateAtom h (fun _ => hmay.repeatable nofun) (.inr hmay.set)
  joinable := hjoin

end

end PatternLint.Rx
