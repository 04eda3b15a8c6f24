import PatternLint.Proofs.DatumPlaces

/-! Places in lists with a dot. The reader joins a tail that is a list to the list it ends, but a
step counts any tail as one element; and a step knows a dot only before white space or a
parenthesis. So an element of the tail is found where it stands just if such a dot comes before it
and the tail is no list. -/

namespace PatternLint

namespace Value

variable {v tail : Value} {items : List Value} {i : Nat}

/-- What a datum becomes as the tail of a list: the items of a list, or
itself unless it is `nil`. -/
def asTail : Value → List Value
  | nil => []
  | list items => items
  | dotted items tail => if tail.isNil then items else items ++ [tail]
  | atom => [atom]

/-- The items that a list adds as a tail are its own. -/
theorem asTail_ofList (items : List Value) : (ofList items).asTail = items := by
  cases items <;> rfl

/-- An atom adds itself, and `nil` nothing. -/
theorem asTail_of_not_cons (h : v.isCons = false) : v.asTail = if v.isNil then [] else [v] := by
  cases v with
  | list items =>
    cases items with
    | nil => rfl
    | cons item items => cases h
  | dotted items tail => cases h
  | _ => rfl

theorem mem_asTail (h : v.isCons = false) (he : tail ∈ v.asTail) : tail = v := by
  rw [asTail_of_not_cons h] at he
  split at he
  · cases he
  · exact List.mem_singleton.mp he

theorem asTail_length_le (h : v.isCons = false) : v.asTail.length ≤ 1 := by
  rw [asTail_of_not_cons h]
  split <;> simp

theorem ofList_of_ne_nil (hne : items ≠ []) : ofList items = list items := by
  cases items with
  | nil => exact (hne rfl).elim
  | cons item items => rfl

/-- With items in front, a tail makes the list longer or ends it in an atom. -/
theorem prepend_cases (hne : items ≠ []) (tail : Value) :
    prepend items tail = list (items ++ tail.asTail) ∨
      ∃ more last, last.isNil = false ∧ tail.asTail = more ++ [last] ∧
        prepend items tail = dotted (items ++ more) last := by
  have atom : ∀ {v : Value}, v.isNil = false → v.asTail = [v] →
      prepend items v = (if items.isEmpty then v else dotted items v) →
        ∃ more last, last.isNil = false ∧ v.asTail = more ++ [last] ∧
          prepend items v = dotted (items ++ more) last := by
    intro v hnil hv hprepend
    refine ⟨[], v, hnil, hv, ?_⟩
    rw [hprepend, if_neg (by simpa using hne), List.append_nil]
  have joined : ∀ more : List Value, ofList (items ++ more) = list (items ++ more) :=
    fun more => ofList_of_ne_nil (List.append_ne_nil_of_left_ne_nil hne more)
  cases tail with
  | nil =>
    left
    rw [prepend_nil, ofList_of_ne_nil hne, asTail, List.append_nil]
  | list more => exact .inl (joined more)
  | dotted more last =>
    cases hnil : last.isNil with
    | true =>
      left
      simp only [prepend, asTail, hnil, if_true, joined]
    | false =>
      right
      refine ⟨more, last, hnil, ?_, ?_⟩
      · simp only [asTail, hnil, Bool.false_eq_true, if_false]
      · simp only [prepend, hnil, Bool.false_eq_true, if_false]
  | _ => exact .inr (atom rfl rfl rfl)

/-- Tails add up. -/
theorem asTail_prepend (hne : items ≠ []) (tail : Value) :
    (prepend items tail).asTail = items ++ tail.asTail := by
  rcases prepend_cases hne tail with h | ⟨more, last, hnil, htail, h⟩
  · rw [h, asTail]
  · rw [h, htail, asTail, hnil, List.append_assoc]
    rfl

/-- Children are counted through the items and on through the tail. -/
theorem child?_prepend_asTail (hne : items ≠ []) (tail : Value) (i : Nat) :
    (prepend items tail).child? i = (items ++ tail.asTail)[i]? := by
  rcases prepend_cases hne tail with h | ⟨more, last, -, htail, h⟩
  · rw [h, child?]
  · rw [h, htail, child?, List.append_assoc]

theorem isCons_ofList (hne : items ≠ []) : (ofList items).isCons := by
  cases items with
  | nil => exact (hne rfl).elim
  | cons item items => rfl

theorem isCons_prepend (hne : items ≠ []) (tail : Value) : (prepend items tail).isCons := by
  rcases prepend_cases hne tail with h | ⟨more, last, -, -, h⟩
  · have hjoined : items ++ tail.asTail ≠ [] := List.append_ne_nil_of_left_ne_nil hne _
    rw [h, ← ofList_of_ne_nil hjoined]
    exact isCons_ofList hjoined
  · rw [h]
    rfl

end Value

namespace Reader

variable {text : List Char} {labels : Labels} {c inside : Cursor}
  {elements : List (Option Nat × Value)} {r : Reading Value} {form v e : Value}
  {offset start place i j : Nat} {path : Path}

/-- A list that is written with a dot: its marks, the data before the dot and the tail behind it. -/
structure Dotted (labels : Labels) (c : Cursor) where
  start : Nat
  inside : Cursor
  items : List (Nat × Value)
  known : Labels
  last : Cursor
  dot : Nat
  after : Cursor
  tailStart : Nat
  tail : Reading Value
  stop : Nat
  next : Cursor
  opened : Takes c (.opener .list) start inside
  before : DataAt labels inside items known last
  nonempty : items ≠ []
  dotted : Takes last .dot dot after
  behind : DatumAt known after tailStart tail
  closed : Takes tail.next (.closer .paren) stop next

/-- What is read from it. -/
def Dotted.reading (d : Dotted labels c) : Reading Value :=
  ⟨.prepend (d.items.map (·.2)) d.tail.value, d.tail.labels, d.next⟩

/-- An element with the place of its own datum. -/
def placed (item : Nat × Value) : Option Nat × Value :=
  (some item.1, item.2)

/-- The elements that a tail adds to its list, each with the place of its own datum if it
has one. The symbol that an abbreviation implies has none, nor have the elements of a list
that a label brings back. -/
inductive Supplies : Labels → Cursor → List (Option Nat × Value) → Reading Value → Prop
  | single {labels : Labels} {c : Cursor} {start : Nat} {r : Reading Value}
    (h : DatumAt labels c start r) (hcons : r.value.isCons = false) :
    Supplies labels c (r.value.asTail.map (some start, ·)) r
  | proper {labels known : Labels} {c inside last next : Cursor} {items : List (Nat × Value)}
    {start stop : Nat} (ho : Takes c (.opener .list) start inside)
    (hi : DataAt labels inside items known last) (hc : Takes last (.closer .paren) stop next) :
    Supplies labels c (items.map placed) ⟨.ofList (items.map (·.2)), known, next⟩
  | dotted {labels : Labels} {c : Cursor} {elements : List (Option Nat × Value)}
      (d : Dotted labels c)
    (h : Supplies d.known d.after elements d.tail) :
    Supplies labels c (d.items.map placed ++ elements) d.reading
  | sugar {labels : Labels} {c inside : Cursor} {start place : Nat} {mark : Sugar}
      {r : Reading Value}
    (ho : Takes c (.sugar mark) start inside) (h : DatumAt labels inside place r) :
    Supplies labels c [(none, .sym mark.symbol), (some place, r.value)]
      ⟨.list [.sym mark.symbol, r.value], r.labels, r.next⟩
  | labelled {labels : Labels} {c inside : Cursor} {start label : Nat} {r : Reading Value}
    {elements : List (Option Nat × Value)} (ho : Takes c (.labelDef label) start inside)
    (h : Supplies labels inside elements r) (hcons : r.value.isCons) :
    Supplies labels c elements ⟨r.value, (label, r.value) :: r.labels, r.next⟩
  | shared {labels : Labels} {c next : Cursor} {start label : Nat} {v : Value}
    (ho : Takes c (.labelRef label) start next) (hv : labels.lookup label = some v)
    (hcons : v.isCons) : Supplies labels c (v.asTail.map (none, ·)) ⟨v, labels, next⟩

/-! What a tail adds -/

theorem map_placed_snd (items : List (Nat × Value)) :
    (items.map placed).map (·.2) = items.map (·.2) := by
  rw [List.map_map]
  rfl

theorem Dotted.values_ne_nil (d : Dotted labels c) : d.items.map (·.2) ≠ [] := by
  simpa using d.nonempty

/-- What a tail supplies is what it adds to a list. -/
theorem Supplies.values (h : Supplies labels c elements r) : elements.map (·.2) =
      r.value.asTail := by
  induction h with
  | single | shared => rw [List.map_map]; exact List.map_id _
  | proper => rw [map_placed_snd, Value.asTail_ofList]
  | dotted d _ ih =>
    rw [List.map_append, map_placed_snd, ih]
    exact (Value.asTail_prepend d.values_ne_nil _).symm
  | sugar => rfl
  | labelled _ _ _ ih => exact ih

/-- The tail is shorter than the whole, which the induction needs. -/
theorem Dotted.after_shorter (d : Dotted labels c) : d.after.rest.length < c.rest.length := by
  have hopened := d.opened.shorter
  have hbefore := d.before.leads.length_le
  have hdotted := d.dotted.shorter
  omega

/-- A list that is read is written without a dot or with one. -/
theorem DatumAt.proper_or_dotted (h : DatumAt labels c start r)
    (ho : Takes c (.opener .list) start inside) :
    (∃ items known last stop next, DataAt labels inside items known last ∧
      Takes last (.closer .paren) stop next ∧ r = ⟨.ofList (items.map (·.2)), known, next⟩) ∨
    ∃ d : Dotted labels c, d.reading = r := by
  obtain ⟨items, known, last, hitems, hends⟩ := h.list ho
  cases hends with
  | proper hc => exact .inl ⟨items, known, last, _, _, hitems, hc, rfl⟩
  | dotted hne hd ht hc =>
    have hne : items ≠ [] := by simpa using hne
    exact .inr ⟨⟨_, _, _, _, _, _, _, _, _, _, _, ho, hitems, hne, hd, ht, hc⟩, rfl⟩

/-- Every datum can be a tail. -/
theorem DatumAt.supplies {c : Cursor} {labels : Labels} {start : Nat} {r : Reading Value}
    (h : DatumAt labels c start r) : ∃ elements, Supplies labels c elements r := by
  cases hcons : r.value.isCons with
  | false => exact ⟨_, .single h hcons⟩
  | true =>
    rcases h.cons_cases hcons with ⟨inside, ho⟩ | ⟨mark, inside, place, inner, ho, hinner, rfl⟩ |
      ⟨label, inside, place, inner, ho, hinner, rfl⟩ | ⟨label, v, next, ho, hv, rfl⟩
    · rcases h.proper_or_dotted ho with ⟨items, known, last, stop, next, hitems, hc, rfl⟩ | ⟨d, rfl⟩
      · exact ⟨_, .proper ho hitems hc⟩
      · have hshort : d.after.rest.length < c.rest.length := d.after_shorter
        obtain ⟨elements, helements⟩ := d.behind.supplies
        exact ⟨_, .dotted d helements⟩
    · exact ⟨_, .sugar ho hinner⟩
    · have hshort : inside.rest.length < c.rest.length := ho.shorter
      obtain ⟨elements, helements⟩ := hinner.supplies
      exact ⟨_, .labelled ho helements hcons⟩
    · exact ⟨_, .shared ho hv hcons⟩
termination_by c.rest.length

theorem mem_placed {items : List (Nat × Value)} (h : (some place, e) ∈ items.map placed) :
    (place, e) ∈ items := by
  obtain ⟨item, hitem, heq⟩ := List.mem_map.mp h
  cases heq
  exact hitem

theorem Dotted.marks_leads (d : Dotted labels c) : c.Leads d.after :=
  d.opened.leads.trans (d.before.leads.trans d.dotted.leads)

/-- The own datum of an added element is read where it stands. -/
theorem Supplies.beginsAt (h : Supplies labels c elements r) (he : (some place, e) ∈ elements) :
    BeginsAt c place e := by
  induction h with
  | single h hcons =>
    obtain ⟨v, hv, heq⟩ := List.mem_map.mp he
    cases heq
    exact Value.mem_asTail hcons hv ▸ h.beginsAt
  | proper ho hi hc => exact ho.leads.beginsAt (hi.beginsAt _ (mem_placed he))
  | dotted d _ ih =>
    rcases List.mem_append.mp he with he | he
    · exact d.opened.leads.beginsAt (d.before.beginsAt _ (mem_placed he))
    · exact d.marks_leads.beginsAt (ih he)
  | sugar ho h =>
    obtain ⟨rfl, rfl⟩ : place = _ ∧ e = _ := by simpa using he
    exact ho.leads.beginsAt h.beginsAt
  | labelled ho h hcons ih => exact ho.leads.beginsAt (ih he)
  | shared => simp at he

/-- The own datum of an added element stands within the tail. -/
theorem Supplies.within (h : Supplies labels c elements r) (he : (some place, e) ∈ elements) :
    c.pos ≤ place ∧ place < r.next.pos := by
  induction h with
  | single h hcons =>
    obtain ⟨v, -, heq⟩ := List.mem_map.mp he
    cases heq
    exact h.extent
  | proper ho hi hc =>
    obtain ⟨hafter, hinside⟩ := hi.places _ (mem_placed he)
    exact ⟨Nat.le_trans ho.leads.pos_le hafter, Nat.lt_of_lt_of_le hinside hc.leads.pos_le⟩
  | dotted d h ih =>
    have hend : d.tail.next.pos ≤ d.next.pos := d.closed.leads.pos_le
    have hbetween : d.last.pos ≤ d.tail.next.pos := (d.dotted.leads.trans d.behind.leads).pos_le
    rcases List.mem_append.mp he with he | he
    · obtain ⟨hafter, hinside⟩ := d.before.places _ (mem_placed he)
      refine ⟨Nat.le_trans d.opened.leads.pos_le hafter, ?_⟩
      exact Nat.lt_of_lt_of_le hinside (Nat.le_trans hbetween hend)
    · obtain ⟨hafter, hinside⟩ := ih he
      exact ⟨Nat.le_trans d.marks_leads.pos_le hafter, Nat.lt_of_lt_of_le hinside hend⟩
  | sugar ho h =>
    obtain ⟨rfl, rfl⟩ : place = _ ∧ e = _ := by simpa using he
    exact ⟨Nat.le_trans ho.leads.pos_le h.extent.1, h.extent.2⟩
  | labelled ho h hcons ih =>
    obtain ⟨hafter, hinside⟩ := ih he
    exact ⟨Nat.le_trans ho.leads.pos_le hafter, hinside⟩
  | shared => simp at he

/-- A tail that is no list stands at its own start, an element of a list behind the first token. -/
theorem Supplies.place_cases {lex : Lexeme} (h : Supplies labels c elements r)
    (ht : Takes c lex start inside) (he : (some place, e) ∈ elements) :
    r.value.isCons = false ∧ place = start ∨ r.value.isCons ∧ inside.pos ≤ place := by
  cases h with
  | single h hcons =>
    obtain ⟨v, -, heq⟩ := List.mem_map.mp he
    cases heq
    obtain ⟨lex', inside', ht', -⟩ := h.takes
    obtain ⟨-, rfl, -⟩ := ht.unique ht'
    exact .inl ⟨hcons, rfl⟩
  | @proper _ known _ _ last next items _ stop ho hi hc =>
    obtain ⟨-, -, rfl⟩ := ht.unique ho
    have hitem := mem_placed he
    have hne : items.map (·.2) ≠ [] := List.map_eq_nil_iff.not.mpr (List.ne_nil_of_mem hitem)
    exact .inr ⟨Value.isCons_ofList hne, (hi.places _ hitem).1⟩
  | dotted d h =>
    obtain ⟨-, -, rfl⟩ := ht.unique d.opened
    refine .inr ⟨Value.isCons_prepend d.values_ne_nil _, ?_⟩
    rcases List.mem_append.mp he with he | he
    · exact (d.before.places _ (mem_placed he)).1
    · exact Nat.le_trans (d.before.leads.trans d.dotted.leads).pos_le (h.within he).1
  | sugar ho h =>
    obtain ⟨-, -, rfl⟩ := ht.unique ho
    obtain ⟨rfl, rfl⟩ : place = _ ∧ e = _ := by simpa using he
    exact .inr ⟨rfl, h.extent.1⟩
  | labelled ho h hcons =>
    obtain ⟨-, -, rfl⟩ := ht.unique ho
    exact .inr ⟨hcons, (h.within he).1⟩
  | shared => simp at he

theorem Dotted.child?_eq (d : Dotted labels c) (h : Supplies d.known d.after elements d.tail)
    (i : Nat) : d.reading.value.child? i = (d.items.map (·.2) ++ elements.map (·.2))[i]? := by
  rw [h.values]
  exact Value.child?_prepend_asTail d.values_ne_nil _ i

/-- Items before the dot have their own indices. -/
theorem Dotted.child?_item (d : Dotted labels c) (hi : d.items[i]? = some (place, e)) :
    d.reading.value.child? i = some e := by
  have hlt : i < (d.items.map (·.2)).length := by
    rw [List.length_map]
    exact (List.getElem?_eq_some_iff.mp hi).1
  have hchild := Value.child?_prepend_asTail d.values_ne_nil d.tail.value i
  rw [List.getElem?_append_left hlt, List.getElem?_map, hi] at hchild
  exact hchild

/-- Items of the tail are counted on from those before the dot. -/
theorem Dotted.child?_added {place? : Option Nat} (d : Dotted labels c)
    (h : Supplies d.known d.after elements d.tail) (he : elements[j]? = some (place?, e)) :
    d.reading.value.child? (d.items.length + j) = some e := by
  have hge : (d.items.map (·.2)).length ≤ d.items.length + j := by
    rw [List.length_map]
    exact Nat.le_add_right _ _
  rw [d.child?_eq h, List.getElem?_append_right hge, List.length_map, Nat.add_sub_cancel_left,
    List.getElem?_map, he]
  rfl

/-! Where steps lead -/

/-- The dot is passed together with the tail, whether it is seen or not. -/
theorem Dotted.found_dot (d : Dotted labels c) : ∃ here, blanks d.last = .ok here ∧
    here.pos = d.dot ∧ atDot here = d.after.atGap ∧ d.after = here.drop 1 ∧
      Passes here d.tail.next := by
  have hne : d.after.rest ≠ [] := by
    obtain ⟨lex, inside, htakes, -⟩ := d.behind.takes
    have hshort := htakes.shorter
    intro hnil
    rw [hnil] at hshort
    cases hshort
  obtain ⟨here, hblanks, hpos, hdot, hafter⟩ := d.dotted.atDot_eq hne
  refine ⟨here, hblanks, hpos, hdot, hafter, fun origin depth => ?_⟩
  rw [skipFrom_of_blanks (skipBlanks_of_blanks hblanks), d.dotted.skips]
  exact d.behind.passes origin depth

/-- Going over a tail steps over the dot only where it is seen. -/
theorem Dotted.skip_tail (d : Dotted labels c) : ∃ here, blanks d.last = .ok here ∧
    skipDatum (if atDot here then here.drop 1 else here) = .ok d.tail.next := by
  obtain ⟨here, hblanks, -, -, hafter, hpasses⟩ := d.found_dot
  refine ⟨here, hblanks, ?_⟩
  split
  · rw [← hafter]
    exact d.behind.skipDatum
  · exact hpasses here.pos 0

section Steps

variable (d : Dotted labels c) (hs : skipBlanks c = .ok c)
include hs

theorem Dotted.enter (i : Nat) : enter? c i = some (d.inside, i) :=
  enter?_opener d.opened hs (.inl rfl) i

/-- Items before the dot are found where they begin. -/
theorem Dotted.stepInto_item (hi : d.items[i]? = some (place, e)) :
    ∃ here, stepInto c i = .ok here ∧ here.pos = place := by
  obtain ⟨labels', mid, r, hbefore, hdatum, -⟩ := d.before.split hi
  have hlength : (d.items.take i).length = i := by
    have := (List.getElem?_eq_some_iff.1 hi).1
    simp
    omega
  have hpass : passElements i d.inside = .ok mid := by
    have hadd := hbefore.passElements_add 0
    rwa [hlength] at hadd
  obtain ⟨here, hblanks, hpos, -, hdot, -⟩ := hdatum.found
  refine ⟨here, ?_, hpos⟩
  simp only [stepInto, d.enter hs, hpass, hblanks, hdot, bind, Except.bind]
  rfl

/-- The tail is found behind the dot, or the dot is taken for it. -/
theorem Dotted.stepInto_tail : ∃ here, stepInto c d.items.length = .ok here ∧
    here.pos = if d.after.atGap then d.tailStart else d.dot := by
  have hpass : passElements d.items.length d.inside = .ok d.last := d.before.passElements_add 0
  obtain ⟨dot, hblanks, hpos, hdot, hafter, -⟩ := d.found_dot
  obtain ⟨tail, hblanks', hpos', -, -, -⟩ := d.behind.found
  cases hgap : d.after.atGap with
  | true =>
    refine ⟨tail, ?_, hpos'⟩
    simp only [stepInto, d.enter hs, hpass, hblanks, hdot, hgap, ← hafter, hblanks', if_true, bind,
      Except.bind]
  | false =>
    refine ⟨dot, ?_, hpos⟩
    simp only [stepInto, d.enter hs, hpass, hblanks, hdot, hgap, bind, Except.bind]
    rfl

/-- One step further stands the closing bracket. -/
theorem Dotted.stepInto_closer : ∃ here, stepInto c (d.items.length + 1) = .ok here ∧
    here.pos = d.stop := by
  obtain ⟨dot, hblanks, hskip⟩ := d.skip_tail
  obtain ⟨close, hblanks', hpos, hs', hclose⟩ := d.closed.found
  have hdot : atDot close = false := hclose.not_atDot (skipBlanks_idem hs') nofun
  have hpass : passElements (d.items.length + 1) d.inside = .ok d.tail.next := by
    rw [d.before.passElements_add]
    simp only [passElements, hblanks, hskip, bind, Except.bind]
  refine ⟨close, ?_, hpos⟩
  simp only [stepInto, d.enter hs, hpass, hblanks', hdot, bind, Except.bind]
  rfl

/-- Beyond the bracket nothing can be found. -/
theorem Dotted.stepInto_beyond (n : Nat) : stepInto c (d.items.length + (n + 2)) =
    malformed d.stop (.badSyntax Closer.paren.text) := by
  obtain ⟨dot, hblanks, hskip⟩ := d.skip_tail
  obtain ⟨close, hblanks', hpos, hs', hclose⟩ := d.closed.found
  have hdot : atDot close = false := hclose.not_atDot (skipBlanks_idem hs') nofun
  have hrefused : skipDatum close = malformed d.stop (.badSyntax Closer.paren.text) :=
    hclose.skips close.pos 0
  have hpass : passElements (d.items.length + (n + 2)) d.inside =
      malformed d.stop (.badSyntax Closer.paren.text) := by
    rw [d.before.passElements_add]
    simp only [passElements, hblanks, hskip, hblanks', hdot, Bool.false_eq_true, if_false, hrefused,
      bind, Except.bind]
    rfl
  simp only [stepInto, d.enter hs, hpass, bind, Except.bind]
  rfl

end Steps

/-- Where the step to an element behind the dot leads: to the tail if the dot is seen and else to
the dot, then to the closing mark; any further step leads nowhere. -/
def Dotted.stepPlace (d : Dotted labels c) : Nat → Nat
  | 0 => if d.after.atGap then d.tailStart else d.dot
  | 1 => d.stop
  | _ + 2 => c.pos

/-- All places from the tail on, by how far they are behind it. -/
theorem Dotted.follow_behind (d : Dotted labels c) (hs : skipBlanks c = .ok c) (j : Nat) :
    (follow [d.items.length + j] c).map Cursor.pos = .ok (d.stepPlace j) := by
  have taken : ∀ {here : Cursor}, stepInto c (d.items.length + j) = .ok here →
      here.pos = d.stepPlace j →
        (follow [d.items.length + j] c).map Cursor.pos = .ok (d.stepPlace j) := by
    intro here hstep hpos
    rw [follow, hstep, ← hpos]
    rfl
  rcases j with _ | _ | n
  · obtain ⟨here, hstep, hpos⟩ := d.stepInto_tail hs
    exact taken hstep hpos
  · obtain ⟨here, hstep, hpos⟩ := d.stepInto_closer hs
    exact taken hstep hpos
  · rw [follow, d.stepInto_beyond hs n]
    rfl

/-- That is where the datum of an added element stands just if the dot is seen
and the tail is no list. -/
theorem Dotted.stepPlace_iff (d : Dotted labels c) (h : Supplies d.known d.after elements d.tail)
    (he : elements[j]? = some (some place, e)) :
    d.stepPlace j = place ↔ d.after.atGap ∧ d.tail.value.isCons = false := by
  have hmem : (some place, e) ∈ elements := List.mem_of_getElem? he
  obtain ⟨hafter, hinside⟩ := h.within hmem
  have hdot : d.dot < d.after.pos := d.dotted.extent.2
  have hopened : c.pos < d.inside.pos := Nat.lt_of_le_of_lt d.opened.extent.1 d.opened.extent.2
  have hitems : d.inside.pos ≤ d.after.pos := (d.before.leads.trans d.dotted.leads).pos_le
  have hstop : d.tail.next.pos ≤ d.stop := d.closed.extent.1
  obtain ⟨lex, first, htakes, -⟩ := d.behind.takes
  have hfirst : d.tailStart < first.pos := htakes.extent.2
  rcases h.place_cases htakes hmem with ⟨hatom, hplace⟩ | ⟨hcons, hplace⟩
  · -- The tail is the only element that is added.
    have hj : j = 0 := by
      have hlength : elements.length ≤ 1 := by
        rw [← List.length_map (·.2), h.values]
        exact Value.asTail_length_le hatom
      have := (List.getElem?_eq_some_iff.mp he).1
      omega
    subst hj
    cases hgap : d.after.atGap with
    | true => simp [Dotted.stepPlace, hgap, hatom, hplace]
    | false =>
      have hbehind : d.dot ≠ place := by omega
      simp [Dotted.stepPlace, hgap, hbehind]
  · rw [hcons]
    constructor
    · intro hreached
      unfold Dotted.stepPlace at hreached
      split at hreached
      · split at hreached <;> omega
      · omega
      · omega
    · rintro ⟨-, hatom⟩
      cases hatom

/-- In a list that is written with a dot, the data before the dot are found where they stand. All
elements of the list are these and what the tail adds. Where the step to an added element leads
is told by the marks of the list alone. It is where the datum of that element stands just if the
dot comes before white space or a parenthesis and the tail is no list; so no such datum is found
where the tail is written as a list, or where a string, a vector, an abbreviation or a comment
follows the dot directly. -/
theorem dotted_resolves (hform : (form, offset) ∈ (read text).forms)
    (hpath : path.reverse.foldlM stepInto (Cursor.of text offset) = .ok c) (d : Dotted labels c)
    (hpart : form.part? path.reverse = some d.reading.value) :
    (∀ i place e, d.items[i]? = some (place, e) → form.part? (i :: path).reverse = some e ∧
      Begins (Cursor.of text place) e ∧ resolve text offset (i :: path) = .ok place) ∧
    (∀ j, resolve text offset ((d.items.length + j) :: path) = .ok (d.stepPlace j)) ∧
    (∃ elements, Supplies d.known d.after elements d.tail) ∧
    ∀ elements, Supplies d.known d.after elements d.tail →
      (∀ i, d.reading.value.child? i = (d.items.map (·.2) ++ elements.map (·.2))[i]?) ∧
      ∀ j place e, elements[j]? = some (some place, e) →
        form.part? ((d.items.length + j) :: path).reverse = some e ∧
        Begins (Cursor.of text place) e ∧
        (resolve text offset ((d.items.length + j) :: path) = .ok place ↔
          d.after.atGap ∧ d.tail.value.isCons = false) := by
  have hplaced := read_placed text _ hform
  have hs : skipBlanks c = .ok c := skipBlanks_of_steps hplaced.blanks hpath
  have hfollow : follow path.reverse (Cursor.of text offset) = .ok c := by
    simpa [follow] using follow_append [] hpath
  have hon : On text c := hplaced.begins.follow hplaced.on hpart hfollow
  have hbehind : ∀ j, resolve text offset ((d.items.length + j) :: path) = .ok (d.stepPlace j) := by
    intro j
    rw [resolve_cons hplaced.blanks hpath, d.follow_behind hs]
  refine ⟨fun i place e hi => ?_, hbehind, d.behind.supplies, fun elements helements => ?_⟩
  · have hbegins := d.before.beginsAt _ (List.mem_of_getElem? hi)
    obtain ⟨here, hstep, hpos⟩ := d.stepInto_item hs hi
    refine ⟨part?_cons hpart (d.child?_item hi), ?_, ?_⟩
    · exact (d.opened.leads.beginsAt hbegins).of_on hon
    · rw [resolve_cons hplaced.blanks hpath, follow, hstep, ← hpos]
      rfl
  · refine ⟨d.child?_eq helements, fun j place e he => ?_⟩
    have hbegins := helements.beginsAt (List.mem_of_getElem? he)
    refine ⟨part?_cons hpart (d.child?_added helements he), ?_, ?_⟩
    · exact (d.marks_leads.beginsAt hbegins).of_on hon
    · rw [hbehind, Except.ok.injEq]
      exact d.stepPlace_iff helements he

/-- Two lists with a dot, the one before a string and the other before a list. -/
def dottedText : List Char :=
  "((a .\"b\") (c . (d e)))".toList

def dottedForm : Value :=
  .list [.dotted [.sym "a"] (.str "b"), .list [.sym "c", .sym "d", .sym "e"]]

def dotBeforeString : Dotted [] (Cursor.of dottedText 1) where
  start := 1
  inside := Cursor.of dottedText 2
  items := [(2, .sym "a")]
  known := []
  last := Cursor.of dottedText 3
  dot := 4
  after := Cursor.of dottedText 5
  tailStart := 5
  tail := ⟨.str "b", [], Cursor.of dottedText 8⟩
  stop := 8
  next := Cursor.of dottedText 9
  opened := ⟨2, by decide +kernel⟩
  before := .cons ⟨1, ⟨.atom "a" false, 2, 3⟩, Cursor.of dottedText 3, by decide +kernel,
    rfl, rfl⟩ .nil
  nonempty := nofun
  dotted := ⟨5, by decide +kernel⟩
  behind := ⟨1, ⟨.string "b", 5, 8⟩, Cursor.of dottedText 8, by decide +kernel, rfl, rfl⟩
  closed := ⟨9, by decide +kernel⟩

def dotBeforeList : Dotted [] (Cursor.of dottedText 10) where
  start := 10
  inside := Cursor.of dottedText 11
  items := [(11, .sym "c")]
  known := []
  last := Cursor.of dottedText 12
  dot := 13
  after := Cursor.of dottedText 14
  tailStart := 15
  tail := ⟨.list [.sym "d", .sym "e"], [], Cursor.of dottedText 20⟩
  stop := 20
  next := Cursor.of dottedText 21
  opened := ⟨11, by decide +kernel⟩
  before := .cons ⟨1, ⟨.atom "c" false, 11, 12⟩, Cursor.of dottedText 12, by decide +kernel,
    rfl, rfl⟩ .nil
  nonempty := nofun
  dotted := ⟨14, by decide +kernel⟩
  behind := ⟨4, ⟨.opener .list, 15, 16⟩, Cursor.of dottedText 16, by decide +kernel, rfl,
    by with_unfolding_all rfl⟩
  closed := ⟨21, by decide +kernel⟩

theorem dottedText_read : (dottedForm, 0) ∈ (read dottedText).forms := by
  have hforms : (read dottedText).forms = [(dottedForm, 0)] := by with_unfolding_all rfl
  rw [hforms]
  exact List.mem_cons_self

theorem dotted_resolves_joined :
    (dottedForm, 0) ∈ (read dottedText).forms ∧
    [1].reverse.foldlM stepInto (Cursor.of dottedText 0) = .ok (Cursor.of dottedText 10) ∧
    dottedForm.part? [1].reverse = some dotBeforeList.reading.value ∧
    resolve dottedText 0 [0, 1] = .ok 11 ∧ resolve dottedText 0 [1, 1] = .ok 15 ∧
    dottedForm.part? [1, 1] = some (.sym "d") ∧ Begins (Cursor.of dottedText 16) (.sym "d") ∧
    resolve dottedText 0 [1, 1] ≠ .ok 16 := by
  have hpath : [1].reverse.foldlM stepInto (Cursor.of dottedText 0) =
      .ok (Cursor.of dottedText 10) := by
    decide +kernel
  have hpart : dottedForm.part? [1].reverse = some dotBeforeList.reading.value := rfl
  have helements : Supplies [] (Cursor.of dottedText 14) [(some 16, .sym "d"), (some 18, .sym "e")]
      dotBeforeList.tail := by
    have hitems : DataAt [] (Cursor.of dottedText 16) [(16, .sym "d"), (18, .sym "e")] []
        (Cursor.of dottedText 19) :=
      .cons ⟨1, ⟨.atom "d" false, 16, 17⟩, Cursor.of dottedText 17, by decide +kernel, rfl, rfl⟩ <|
        .cons ⟨1, ⟨.atom "e" false, 18, 19⟩, Cursor.of dottedText 19, by decide +kernel,
          rfl, rfl⟩ .nil
    have hopen : Takes (Cursor.of dottedText 14) (.opener .list) 15 (Cursor.of dottedText 16) :=
      ⟨16, by decide +kernel⟩
    have hclose : Takes (Cursor.of dottedText 19) (.closer .paren) 19 (Cursor.of dottedText 20) :=
      ⟨20, by decide +kernel⟩
    exact .proper hopen hitems hclose
  obtain ⟨hitems, hbehind, -, hall⟩ := dotted_resolves dottedText_read hpath dotBeforeList hpart
  obtain ⟨-, -, hitem⟩ := hitems 0 11 (.sym "c") rfl
  obtain ⟨-, hadded⟩ := hall _ helements
  obtain ⟨hchild, hbegins, hfound⟩ := hadded 0 16 (.sym "d") rfl
  refine ⟨dottedText_read, hpath, hpart, hitem, hbehind 0, hchild, hbegins, fun h => ?_⟩
  exact absurd (hfound.mp h).2 (by decide)

/-- A step that should lead to the string behind the dot leads to the dot. -/
theorem dotted_beside :
    ¬ ∀ (text : List Char) (form : Value) (offset : Nat) (path : Path)
    (labels : Labels) (c : Cursor)
      (d : Dotted labels c) (elements : List (Option Nat × Value)),
      (form, offset) ∈ (read text).forms →
      path.reverse.foldlM stepInto (Cursor.of text offset) = .ok c →
      form.part? path.reverse = some d.reading.value →
      Supplies d.known d.after elements d.tail →
      ∀ j place e, elements[j]? = some (some place, e) →
        resolve text offset ((d.items.length + j) :: path) = .ok place := by
  intro h
  have hpath : [0].reverse.foldlM stepInto (Cursor.of dottedText 0) =
      .ok (Cursor.of dottedText 1) := by
    decide +kernel
  have helements : Supplies [] (Cursor.of dottedText 5) [(some 5, .str "b")] dotBeforeString.tail :=
    .single dotBeforeString.behind rfl
  have hfound : resolve dottedText 0 [1, 0] = .ok 5 :=
    h dottedText dottedForm 0 [0] [] _ dotBeforeString _ dottedText_read hpath rfl helements 0 5
      (.str "b") rfl
  have hdot : resolve dottedText 0 [1, 0] = .ok 4 := by decide +kernel
  rw [hdot] at hfound
  cases hfound

end Reader

end PatternLint
