import PatternLint.Proofs.ReadingRounds
import PatternLint.Proofs.ResolvedPlaces

/-! Data at the places they are read from. Any text that can be read is allowed, with labels and
with lists as tails; what a list is read from is told by its tokens and by the data in it. -/

namespace PatternLint.Reader

variable {labels known : Labels} {c d last next inside : Cursor} {items : List (Nat × Value)}
  {r : Reading Value} {v : Value} {bound origin start place i : Nat}

/-- With these labels known, `r` is read from what comes at `c`; the datum starts at `start`. -/
def DatumAt (labels : Labels) (c : Cursor) (start : Nat) (r : Reading Value) : Prop :=
  ∃ bound tok inside, token? false c = .ok (some (tok, inside)) ∧ tok.start = start ∧
    datumFrom bound labels tok inside = .ok r

/-- Data one after the other, each with its start; every one is read with the
labels of those before. -/
inductive DataAt : Labels → Cursor → List (Nat × Value) → Labels → Cursor → Prop
  | nil {labels : Labels} {c : Cursor} : DataAt labels c [] labels c
  | cons {labels known : Labels} {c last : Cursor} {start : Nat} {r : Reading Value}
    {items : List (Nat × Value)} (h : DatumAt labels c start r)
    (hs : DataAt r.labels r.next items known last) :
    DataAt labels c ((start, r.value) :: items) known last

/-- A datum of this value begins at this place, which is `c` or further on. -/
def BeginsAt (c : Cursor) (place : Nat) (v : Value) : Prop :=
  ∃ here, c.Leads here ∧ here.pos = place ∧ Begins here v

/-- What ends a list: a closing mark, or a dot and a tail before it. -/
inductive ListEnds (known : Labels) (last : Cursor) (values : List Value) : Reading Value → Prop
  | proper {next : Cursor} {stop : Nat} (hc : Takes last (.closer .paren) stop next) :
    ListEnds known last values ⟨.ofList values, known, next⟩
  | dotted {after next : Cursor} {tail : Reading Value} {dot start stop : Nat} (hne : values ≠ [])
    (hd : Takes last .dot dot after) (ht : DatumAt known after start tail)
    (hc : Takes tail.next (.closer .paren) stop next) :
    ListEnds known last values ⟨.prepend values tail.value, tail.labels, next⟩

/-! Extents -/

theorem Cursor.Leads.length_le (h : c.Leads next) : next.rest.length ≤ c.rest.length := by
  obtain ⟨n, rfl⟩ := h
  rw [Cursor.length_drop]
  exact Nat.sub_le _ _

theorem Takes.extent {lex : Lexeme} (h : Takes c lex start next) :
    c.pos ≤ start ∧ start < next.pos := by
  obtain ⟨stop, h⟩ := h
  obtain ⟨hafter, hnonempty, hstop⟩ := token?_extent h
  exact ⟨hafter, hstop ▸ hnonempty⟩

theorem Takes.unique {lex lex' : Lexeme} {start' : Nat} {next' : Cursor}
    (h : Takes c lex start next)
    (h' : Takes c lex' start' next') : lex = lex' ∧ start = start' ∧ next = next' := by
  obtain ⟨stop, h⟩ := h
  obtain ⟨stop', h'⟩ := h'
  rw [h] at h'
  cases h'
  exact ⟨rfl, rfl, rfl⟩

/-- Blanks before a token are passed. -/
theorem Takes.found {lex : Lexeme} (h : Takes c lex start next) : ∃ here, blanks c = .ok here ∧
    here.pos = start ∧ skipBlanks c = .ok here ∧ Takes here lex start next := by
  obtain ⟨here, hs, hpos⟩ := h.skipBlanks_ok
  refine ⟨here, ?_, hpos, hs, h.imp fun _ => (token?_of_blanks hs).trans⟩
  simp only [Reader.blanks, hs]
  rfl

namespace DatumAt

theorem takes (h : DatumAt labels c start r) : ∃ lex inside, Takes c lex start inside ∧
    inside.Leads r.next := by
  obtain ⟨bound, ⟨lex, start, stop⟩, inside, htok, rfl, hread⟩ := h
  have hskip : skipFrom 0 0 c = .ok r.next := (reading_passes bound).1 htok hread 0 0
  exact ⟨lex, inside, ⟨stop, htok⟩, skipFrom_leads (token?_tolerant htok) hskip⟩

theorem begins (h : DatumAt labels c start r) : Begins c r.value := by
  obtain ⟨bound, tok, inside, htok, -, hread⟩ := h
  exact ⟨bound, labels, tok, inside, r, htok, hread, rfl⟩

theorem passes (h : DatumAt labels c start r) : Passes c r.next := by
  obtain ⟨bound, tok, inside, htok, -, hread⟩ := h
  exact (reading_passes bound).1 htok hread

theorem skipDatum (h : DatumAt labels c start r) : skipDatum c = .ok r.next :=
  h.passes c.pos 0

theorem behindBlanks (h : DatumAt labels c start r) (hs : skipBlanks c = .ok d) :
    DatumAt labels d start r := by
  obtain ⟨bound, tok, inside, htok, hstart, hread⟩ := h
  exact ⟨bound, tok, inside, (token?_of_blanks hs).trans htok, hstart, hread⟩

theorem leads (h : DatumAt labels c start r) : c.Leads r.next := by
  obtain ⟨lex, inside, htakes, hleads⟩ := h.takes
  exact htakes.leads.trans hleads

theorem extent (h : DatumAt labels c start r) : c.pos ≤ start ∧ start < r.next.pos := by
  obtain ⟨lex, inside, htakes, hleads⟩ := h.takes
  obtain ⟨hafter, hinside⟩ := htakes.extent
  exact ⟨hafter, Nat.lt_of_lt_of_le hinside hleads.pos_le⟩

/-- The datum is found behind blanks, and is no dot. -/
theorem found (h : DatumAt labels c start r) : ∃ here, blanks c = .ok here ∧ here.pos = start ∧
    c.Leads here ∧ atDot here = false ∧ DatumAt labels here start r := by
  obtain ⟨lex, inside, htakes, -⟩ := h.takes
  obtain ⟨here, hblanks, hpos, hs, -⟩ := htakes.found
  have hhere := h.behindBlanks hs
  exact ⟨here, hblanks, hpos, skipBlanks_leads hs, hhere.begins.not_atDot (skipBlanks_idem hs),
    hhere⟩

theorem beginsAt (h : DatumAt labels c start r) : BeginsAt c start r.value := by
  obtain ⟨here, -, hpos, hleads, -, hhere⟩ := h.found
  exact ⟨here, hleads, hpos, hhere.begins⟩

end DatumAt

theorem Cursor.Leads.beginsAt (h : c.Leads d) (hd : BeginsAt d place v) : BeginsAt c place v := by
  obtain ⟨here, hleads, hpos, hhere⟩ := hd
  exact ⟨here, h.trans hleads, hpos, hhere⟩

theorem On.leads {text : List Char} (h : On text c) : (Cursor.start text).Leads c := by
  refine ⟨c.pos, ?_⟩
  rw [← h.eq_of]
  simp [Cursor.of, Cursor.drop, Cursor.start]

theorem BeginsAt.of_on {text : List Char} (h : BeginsAt c place v) (hc : On text c) :
    Begins (Cursor.of text place) v := by
  obtain ⟨here, hleads, rfl, hhere⟩ := h
  rwa [(hc.leads.trans hleads).of_eq]

namespace DataAt

theorem leads (h : DataAt labels c items known last) : c.Leads last := by
  induction h with
  | nil => exact .refl _
  | cons h _ ih => exact h.leads.trans ih

theorem places (h : DataAt labels c items known last) :
    ∀ item ∈ items, c.pos ≤ item.1 ∧ item.1 < last.pos := by
  induction h with
  | nil => exact List.forall_mem_nil _
  | cons h hs ih =>
    obtain ⟨hafter, hinside⟩ := h.extent
    intro item hitem
    rcases List.mem_cons.mp hitem with rfl | hitem
    · exact ⟨hafter, Nat.lt_of_lt_of_le hinside hs.leads.pos_le⟩
    · obtain ⟨hlater, hinside'⟩ := ih item hitem
      exact ⟨by omega, hinside'⟩

theorem beginsAt (h : DataAt labels c items known last) :
    ∀ item ∈ items, BeginsAt c item.1 item.2 := by
  induction h with
  | nil => exact List.forall_mem_nil _
  | cons h _ ih =>
    intro item hitem
    rcases List.mem_cons.mp hitem with rfl | hitem
    · exact h.beginsAt
    · exact h.leads.beginsAt (ih item hitem)

/-- Passing as many elements as there are data leads behind them. -/
theorem passElements_add (h : DataAt labels c items known last) (count : Nat) :
    passElements (items.length + count) c = passElements count last := by
  induction h with
  | nil => rw [List.length_nil, Nat.zero_add]
  | @cons _ _ _ _ _ r items h _ ih =>
    obtain ⟨here, hblanks, -, -, hdot, hhere⟩ := h.found
    rw [List.length_cons, Nat.add_right_comm]
    simp only [passElements, hblanks, hdot, hhere.skipDatum, Bool.false_eq_true, if_false, bind,
      Except.bind]
    exact ih

/-- Each of the data is read behind those before it. -/
theorem split (h : DataAt labels c items known last) (hi : items[i]? = some (place, v)) :
    ∃ labels' d r, DataAt labels c (items.take i) labels' d ∧ DatumAt labels' d place r ∧
      r.value = v := by
  induction h generalizing i with
  | nil => cases hi
  | cons h hs ih =>
    cases i with
    | zero =>
      cases hi
      exact ⟨_, _, _, .nil, h, rfl⟩
    | succ i =>
      obtain ⟨labels', d, r, hbefore, hdatum, hvalue⟩ := ih hi
      exact ⟨labels', d, r, .cons h hbefore, hdatum, hvalue⟩

end DataAt

/-! What a list is read from -/

theorem listFrom_ends {read : List Value} (h : listFrom bound origin read labels c = .ok r) :
    ∃ items known last, DataAt labels c items known last ∧
      ListEnds known last (read.reverse ++ items.map (·.2)) r := by
  induction bound generalizing read labels c with
  | zero =>
    rw [listFrom] at h
    cases h
  | succ bound ih =>
    rw [listFrom] at h
    obtain ⟨found, htok, h⟩ := bind_ok h
    cases found with
    | none => cases h
    | some found =>
      obtain ⟨⟨lex, start, stop⟩, next⟩ := found
      cases lex with
      | closer k =>
        cases k with
        | paren =>
          cases h
          have hends : ListEnds labels c read.reverse ⟨.ofList read.reverse, labels, next⟩ :=
            .proper ⟨stop, htok⟩
          exact ⟨[], labels, c, .nil, by simpa using hends⟩
        | bracket => cases h
      | dot =>
        simp only at h
        split at h
        · cases h
        rename_i hne
        obtain ⟨⟨tok, afterTail⟩, htail, h⟩ := bind_ok h
        obtain ⟨tail, hread, h⟩ := bind_ok h
        obtain ⟨found, hclose, h⟩ := bind_ok h
        split at h
        · cases h
          have hdatum : DatumAt labels next tok.start tail :=
            ⟨bound, tok, afterTail, nextToken_eq_ok htail, rfl, hread⟩
          have hends : ListEnds labels c read.reverse _ :=
            .dotted (by simpa using hne) ⟨stop, htok⟩ hdatum ⟨_, hclose⟩
          exact ⟨[], labels, c, .nil, by simpa using hends⟩
        · cases h
      | _ =>
        obtain ⟨item, hitem, h⟩ := bind_ok h
        obtain ⟨items, known, last, hitems, hends⟩ := ih h
        refine ⟨(start, item.value) :: items, known, last,
          .cons ⟨bound, _, next, htok, rfl, hitem⟩ hitems, ?_⟩
        simpa using hends

/-- A list is read from the data in it, up to a closing mark or a dot. -/
theorem DatumAt.list (h : DatumAt labels c start r) (ho : Takes c (.opener .list) origin inside) :
    ∃ items known last, DataAt labels inside items known last ∧
      ListEnds known last (items.map (·.2)) r := by
  obtain ⟨bound, tok, inside', htok, -, hread⟩ := h
  obtain ⟨stop, ho⟩ := ho
  rw [ho] at htok
  cases htok
  cases bound with
  | zero =>
    rw [datumFrom] at hread
    cases hread
  | succ bound =>
    rw [datumFrom] at hread
    obtain ⟨items, known, last, hitems, hends⟩ := listFrom_ends hread
    exact ⟨items, known, last, hitems, by simpa using hends⟩

theorem isCons_of_datum {lex : Lexeme} (hv : lex.datum? = some v) : v.isCons = false := by
  have hchild : v.child? 0 = none := child?_of_datum hv
  cases v with
  | list items =>
    cases items with
    | nil => rfl
    | cons item items => cases hchild
  | dotted items tail =>
    cases items <;> cases hchild
  | _ => rfl

theorem inner_datumAt {bound : Nat} {k : Reading Value → Except Fault (Reading Value)}
    (h : (do
      let p ← nextToken inside
      let inner ← datumFrom bound labels p.1 p.2
      k inner) = .ok r) : ∃ place inner, DatumAt labels inside place inner ∧ k inner = .ok r := by
  obtain ⟨⟨tok, next⟩, hnext, h⟩ := bind_ok h
  obtain ⟨inner, hinner, h⟩ := bind_ok h
  exact ⟨tok.start, inner, ⟨bound, tok, next, nextToken_eq_ok hnext, rfl, hinner⟩, h⟩

/-- What a list or pair is read from. -/
theorem DatumAt.cons_cases (h : DatumAt labels c start r) (hcons : r.value.isCons) :
    (∃ inside, Takes c (.opener .list) start inside) ∨
    (∃ mark inside place inner, Takes c (.sugar mark) start inside ∧
      DatumAt labels inside place inner ∧
        r = ⟨.list [.sym mark.symbol, inner.value], inner.labels, inner.next⟩) ∨
    (∃ label inside place inner, Takes c (.labelDef label) start inside ∧
      DatumAt labels inside place inner ∧
        r = ⟨inner.value, (label, inner.value) :: inner.labels, inner.next⟩) ∨
    ∃ label v next, Takes c (.labelRef label) start next ∧ labels.lookup label = some v ∧
      r = ⟨v, labels, next⟩ := by
  obtain ⟨bound, ⟨lex, start, stop⟩, inside, htok, rfl, hread⟩ := h
  have htakes : Takes c lex start inside := ⟨stop, htok⟩
  cases bound with
  | zero =>
    rw [datumFrom] at hread
    cases hread
  | succ bound =>
    have atom : ∀ {v : Value}, lex.datum? = some v → False := by
      intro v hv
      rw [atom_reads hv] at hread
      cases hread
      rw [isCons_of_datum hv] at hcons
      cases hcons
    cases lex with
    | atom text escaped =>
      cases hv : atomValue text escaped with
      | error f =>
        simp only [datumFrom, hv] at hread
        cases hread
      | ok v => exact (atom (v := v) (by simp only [Lexeme.datum?, hv]; rfl)).elim
    | string text => exact (atom rfl).elim
    | char code => exact (atom rfl).elim
    | number n => exact (atom rfl).elim
    | sugar mark =>
      simp only [datumFrom] at hread
      obtain ⟨place, inner, hinner, hread⟩ := inner_datumAt hread
      cases hread
      exact .inr (.inl ⟨mark, inside, place, inner, htakes, hinner, rfl⟩)
    | labelDef label =>
      simp only [datumFrom] at hread
      obtain ⟨place, inner, hinner, hread⟩ := inner_datumAt hread
      cases hread
      exact .inr (.inr (.inl ⟨label, inside, place, inner, htakes, hinner, rfl⟩))
    | labelRef label =>
      simp only [datumFrom] at hread
      split at hread
      · cases hread
        exact .inr (.inr (.inr ⟨label, _, inside, htakes, ‹_›, rfl⟩))
      · cases hread
    | boolVector mark =>
      simp only [datumFrom] at hread
      obtain ⟨place, inner, hinner, hread⟩ := inner_datumAt hread
      split at hread <;> cases hread
      cases hcons
    | opener o =>
      cases o with
      | list => exact .inl ⟨inside, htakes⟩
      | properties =>
        simp only [datumFrom] at hread
        obtain ⟨items, -, hread⟩ := bind_ok hread
        split at hread <;> cases hread
        obtain ⟨text, rfl⟩ := firstString?_str ‹_›
        cases hcons
      | _ =>
        simp only [datumFrom] at hread
        obtain ⟨items, -, hread⟩ := bind_ok hread
        cases hread
        cases hcons
    | _ =>
      simp only [datumFrom] at hread
      cases hread

end PatternLint.Reader
