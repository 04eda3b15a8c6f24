import PatternLint.Proofs.PlainText

/-! Places are found again. From the place of a datum, the steps that lead to one of its parts are
followed in the text to where the reader took that part from. -/

namespace PatternLint

/-- An item of a list or vector; the tail after a dot is the last. -/
def Value.child? : Value → Nat → Option Value
  | .list items, i | .vec items, i => items[i]?
  | .dotted items tail, i => (items ++ [tail])[i]?
  | _, _ => none

/-- The part to which steps lead, the outermost first. -/
def Value.part? (v : Value) (steps : List Nat) : Option Value :=
  steps.foldlM Value.child? v

namespace Reader

/-- An item as it stands in the text. The symbol that an abbreviation implies does not. -/
def Located.child? : Located → Nat → Option Located
  | .sugar _ _ inner, 1 => some inner
  | .list _ items, i | .vector _ items, i => items[i]?
  | .dotted _ items tail, i => (items ++ [tail])[i]?
  | _, _ => none

def Located.part? (l : Located) (steps : List Nat) : Option Located :=
  steps.foldlM Located.child? l

/-- Whether a step leads to the symbol that an abbreviation implies. -/
def Located.implies : Located → Nat → Bool
  | .sugar _ _ _, 0 => true
  | _, _ => false

/-- Whether one of the steps leads to a symbol that is implied. -/
def Located.meetsImplied (l : Located) : List Nat → Bool
  | [] => false
  | i :: steps => l.implies i || (l.child? i).any fun child => child.meetsImplied steps

section Child

variable {c next : Cursor} {l : Located} {s v : Value} {i : Nat}

theorem child?_of_datum {lex : Lexeme} (hv : lex.datum? = some v) : v.child? i = none := by
  cases lex with
  | atom text escaped =>
    simp only [Lexeme.datum?] at hv
    unfold atomValue at hv
    split at hv
    · cases hv; rfl
    split at hv
    · cases hv; rfl
    split at hv
    · cases hn : readNumeral 10 (text.toList.filter (· != '.')) with
      | error f =>
        rw [hn] at hv
        cases hv
      | ok n =>
        rw [hn] at hv
        cases hv
        rfl
    split at hv <;> cases hv <;> rfl
  | string text => cases hv; rfl
  | char code => cases hv; rfl
  | number n => cases hv; rfl
  | _ => cases hv

theorem child?_ofList (items : List Value) : (Value.ofList items).child? i = items[i]? := by
  cases items <;> rfl

theorem child?_prepend {items : List Value} {tail : Value} (ht : tail.isCons = false)
    (hne : items ≠ []) (h : (Value.prepend items tail).child? i = some s) :
    (items ++ [tail])[i]? = some s := by
  have hlist : ∀ {vs : List Value}, vs = items → (Value.ofList vs).child? i = some s →
      (items ++ [tail])[i]? = some s := by
    intro vs hvs h
    rw [hvs, child?_ofList] at h
    have hi : i < items.length := (List.getElem?_eq_some_iff.1 h).1
    rwa [List.getElem?_append_left hi]
  have hempty : items.isEmpty = false := by simpa using hne
  cases tail with
  | nil => exact hlist rfl h
  | list more =>
    cases more with
    | nil => exact hlist (List.append_nil items) h
    | cons v more => cases ht
  | dotted more tail => cases ht
  | _ =>
    simp only [Value.prepend, hempty] at h
    exact h

theorem firstString?_str {items : List Value} (h : firstString? items = some v) :
    ∃ text, v = .str text := by
  unfold firstString? at h
  split at h <;> cases h
  exact ⟨_, rfl⟩

theorem values_getElem? (items : List Located) (h : (Located.values items)[i]? = some s) :
    ∃ part, items[i]? = some part ∧ part.value = s := by
  rw [Located.values_eq_map, List.getElem?_map] at h
  exact Option.map_eq_some_iff.1 h

/-- Each part of a datum stands in the text, but for the symbol that an abbreviation implies. -/
theorem Stands.child (h : Stands c l next) (hs : l.value.child? i = some s)
    (himplied : l.implies i = false) : ∃ part, l.child? i = some part ∧ part.value = s := by
  cases h with
  | atom h hv =>
    rw [Located.value, child?_of_datum hv] at hs
    cases hs
  | @properties _ _ _ _ items _ _ v h hi hc hv =>
    obtain ⟨text, rfl⟩ := firstString?_str hv
    cases hs
  | boolVector h hi hv => cases hs
  | @sugar _ inside _ l start mark h hi =>
    rcases i with _ | _ | i
    · cases himplied
    · cases hs
      exact ⟨l, rfl, rfl⟩
    · cases hs
  | @list _ _ _ _ items _ _ h hi hc =>
    rw [Located.value, child?_ofList] at hs
    exact values_getElem? items hs
  | @dotted _ _ _ _ _ _ items tail _ _ _ h hi hne hd hgap ht hcons hc =>
    have hne : Located.values items ≠ [] := by simpa [Located.values_eq_map] using hne
    have hs := child?_prepend hcons hne hs
    refine values_getElem? (items ++ [tail]) ?_
    simpa [Located.values_eq_map] using hs
  | @vector _ _ _ _ items _ _ _ h ho hi hc => exact values_getElem? items hs

end Child

section Stepping

variable {c next here inside last : Cursor} {l : Located} {items : List Located} {i start : Nat}

theorem Takes.skipBlanks_ok {lex : Lexeme} (h : Takes c lex start next) :
    ∃ here, skipBlanks c = .ok here ∧ here.pos = start := by
  obtain ⟨stop, h⟩ := h
  obtain ⟨here, x, tail, hs, -, -, heq⟩ := token?_eq_some h
  cases heq
  exact ⟨here, hs, rfl⟩

/-- The datum at `c` is found when white space before it has been passed. -/
structure Rests (c : Cursor) (l : Located) (next : Cursor) : Prop where
  stands : Stands c l next
  blanks : skipBlanks c = .ok c

theorem Stands.rests (h : Stands c l next) : ∃ here, blanks c = .ok here ∧ Rests here l next ∧
    here.pos = l.start ∧ c.Leads here := by
  obtain ⟨lex, inside, htok, -⟩ := h.takes
  obtain ⟨here, hs, hpos⟩ := htok.skipBlanks_ok
  refine ⟨here, ?_, ⟨h.behindBlanks hs, skipBlanks_idem hs⟩, hpos, skipBlanks_leads hs⟩
  simp only [blanks, hs]
  rfl

theorem Rests.pos (h : Rests c l next) : c.pos = l.start := by
  obtain ⟨lex, inside, htok, -⟩ := h.stands.takes
  obtain ⟨here, hs, hpos⟩ := htok.skipBlanks_ok
  rw [h.blanks] at hs
  cases hs
  exact hpos

theorem Takes.not_atDot {lex : Lexeme} (h : Takes c lex start next) (hs : skipBlanks c = .ok c)
    (hlex : lex ≠ .dot) : atDot c = false := by
  rw [Bool.eq_false_iff]
  intro hdot
  obtain ⟨tail, after, hr, hlexeme⟩ := lexeme_of_atDot false hdot
  obtain ⟨stop, h⟩ := h
  rw [token?_of_lexeme hs hr hlexeme] at h
  cases h
  exact hlex rfl

theorem Rests.not_atDot (h : Rests c l next) : atDot c = false := by
  obtain ⟨lex, inside, htok, hbegins⟩ := h.stands.takes
  refine htok.not_atDot h.blanks ?_
  rintro rfl
  cases hbegins

/-- A dot is seen as one just if a gap comes behind it. -/
theorem Takes.atDot_eq (h : Takes c .dot start next) (hne : next.rest ≠ []) : ∃ here,
    blanks c = .ok here ∧ here.pos = start ∧ atDot here = next.atGap ∧ next = here.drop 1 := by
  obtain ⟨stop, h⟩ := h
  obtain ⟨here, x, tail, hs, hr, hlex, heq⟩ := token?_eq_some h
  cases heq
  obtain ⟨hdot, hnext⟩ := lexeme_dot hr hlex
  refine ⟨here, by simp only [blanks, hs]; rfl, rfl, ?_, hnext⟩
  unfold Cursor.atGap Reader.atDot
  rw [hdot]
  rcases hrest : next.rest with _ | ⟨y, rest⟩
  · exact (hne hrest).elim
  · rfl

/-- A dot before a gap is seen as one, and the tail comes behind it. -/
theorem Takes.atDot (h : Takes c .dot start next) (hgap : next.atGap) :
    ∃ here, blanks c = .ok here ∧ atDot here ∧ next = here.drop 1 := by
  have hne : next.rest ≠ [] := by
    intro hnil
    rw [Cursor.atGap, hnil] at hgap
    cases hgap
  obtain ⟨here, hblanks, -, hdot, hnext⟩ := h.atDot_eq hne
  exact ⟨here, hblanks, hdot.trans hgap, hnext⟩

/-- A mark that opens a structure is recognised by its text. -/
theorem Takes.mark {lex : Lexeme} {m : String} (h : Takes c lex start next)
    (hs : skipBlanks c = .ok c) (hm : lex.mark? = some m) :
    c.startsWith m ∧ next = c.drop m.length ∧
      (lex = .sugar .unquote → c.startsWith ",@" = false) := by
  obtain ⟨stop, h⟩ := h
  obtain ⟨here, x, tail, hs', hr, hlex, -⟩ := token?_eq_some h
  rw [hs] at hs'
  cases hs'
  exact (lexeme_mark hr hlex).1 m hm

theorem startsWith_eq {m : String} (h : c.startsWith m) :
    ∃ tail, c = ⟨c.pos, m.toList ++ tail⟩ := by
  obtain ⟨tail, htail⟩ := List.isPrefixOf_iff_prefix.1 h
  exact ⟨tail, by rw [htail]⟩

theorem markLength?_sugar {mark : Sugar} (h : c.startsWith mark.text)
    (hcomma : mark = .unquote → c.startsWith ",@" = false) :
    markLength? sugarMarks c = some mark.text.length := by
  obtain ⟨tail, hc⟩ := startsWith_eq h
  generalize c.pos = pos at hc
  subst hc
  cases mark with
  | unquote =>
    have hsplice := hcomma rfl
    have hfunction : (Cursor.mk pos (Sugar.unquote.text.toList ++ tail)).startsWith
        Sugar.function.text = false := rfl
    have hquote : (Cursor.mk pos (Sugar.unquote.text.toList ++ tail)).startsWith
        Sugar.quote.text = false := rfl
    have hback : (Cursor.mk pos (Sugar.unquote.text.toList ++ tail)).startsWith
        Sugar.backquote.text = false := rfl
    have hsplice' : (Cursor.mk pos (Sugar.unquote.text.toList ++ tail)).startsWith
        Sugar.splice.text = false := hsplice
    simp only [markLength?, sugarMarks, List.map, List.find?, hfunction, hsplice', hquote, hback, h]
    rfl
  | _ => rfl

theorem enter?_sugar {mark : Sugar} (h : Takes c (.sugar mark) start inside)
    (hs : skipBlanks c = .ok c) (i : Nat) : enter? c i = some (inside, i - 1) := by
  obtain ⟨hstart, hnext, hcomma⟩ := h.mark hs rfl
  rw [enter?, markLength?_sugar hstart fun hm => hcomma (by rw [hm]), hnext]

theorem markLength?_opener {o : Opener} (h : c.startsWith o.text) (ho : o = .list ∨ o.isVector) :
    markLength? sugarMarks c = none ∧ markLength? openMarks c = some o.text.length := by
  obtain ⟨tail, hc⟩ := startsWith_eq h
  generalize c.pos = pos at hc
  subst hc
  cases o with
  | list | vector | record => exact ⟨rfl, rfl⟩
  | properties => exact absurd ho (by decide)
  | hashVector mark =>
    have hmark : mark = "#[" := by simpa [Opener.isVector] using ho
    subst hmark
    exact ⟨rfl, rfl⟩

theorem enter?_opener {o : Opener} (h : Takes c (.opener o) start inside)
    (hs : skipBlanks c = .ok c) (ho : o = .list ∨ o.isVector) (i : Nat) :
    enter? c i = some (inside, i) := by
  obtain ⟨hstart, hnext, -⟩ := h.mark hs rfl
  obtain ⟨hsugar, hopen⟩ := markLength?_opener hstart ho
  rw [enter?, hsugar, hopen, hnext]
  rfl

/-- Passing elements goes from datum to datum. -/
theorem AllStand.passElements (h : AllStand c items last) (hi : i ≤ items.length) :
    ∃ d, passElements i c = .ok d ∧ AllStand d (items.drop i) last ∧ c.Leads d := by
  induction i generalizing c items with
  | zero => exact ⟨c, rfl, h, .refl c⟩
  | succ i ih =>
    cases h with
    | nil => cases hi
    | cons h hs =>
      obtain ⟨here, hblanks, hrests, -, -⟩ := h.rests
      have hskip : skipDatum here = .ok _ := hrests.stands.skips here.pos 0
      obtain ⟨d, hd, hstand, hleads⟩ := ih hs (Nat.le_of_succ_le_succ hi)
      refine ⟨d, ?_, hstand, h.leads.trans hleads⟩
      simp only [Reader.passElements, hblanks, hrests.not_atDot, Bool.false_eq_true, if_false,
        hskip, bind, Except.bind]
      exact hd

/-- One step goes from the place of a datum to the place of the part that it names. -/
theorem Rests.stepInto {part : Located} (h : Rests c l next) (hp : l.child? i = some part) :
    ∃ d after, stepInto c i = .ok d ∧ Rests d part after ∧ c.Leads d := by
  -- The datum before which all elements have been passed.
  have first : ∀ {inside d after : Cursor} {count : Nat} {part : Located}, c.Leads d →
      enter? c i = some (inside, count) → Reader.passElements count inside = .ok d →
      Stands d part after → ∃ d after, Reader.stepInto c i = .ok d ∧ Rests d part after ∧
        c.Leads d := by
    intro inside d after count part hleads henter hd hpart
    obtain ⟨here, hblanks, hrests, -, hleads'⟩ := hpart.rests
    refine ⟨here, after, ?_, hrests, hleads.trans hleads'⟩
    simp only [Reader.stepInto, henter, hd, hblanks, hrests.not_atDot, bind, Except.bind]
    rfl
  -- An item of a sequence.
  have item : ∀ {inside last : Cursor} {items : List Located}, c.Leads inside →
      enter? c i = some (inside, i) → AllStand inside items last → items[i]? = some part →
      ∃ d after, Reader.stepInto c i = .ok d ∧ Rests d part after ∧ c.Leads d := by
    intro inside last items hleads henter hitems hget
    obtain ⟨hi, rfl⟩ := List.getElem?_eq_some_iff.1 hget
    obtain ⟨d, hd, hstand, hleads'⟩ := hitems.passElements (Nat.le_of_lt hi)
    rw [List.drop_eq_getElem_cons hi] at hstand
    cases hstand with
    | cons hpart hs => exact first (hleads.trans hleads') henter hd hpart
  cases h.stands with
  | atom | properties | boolVector => cases hp
  | @sugar _ inside _ inner _ mark hmark hi =>
    have hindex : i = 1 ∧ inner = part := by
      rcases i with _ | _ | i
      · cases hp
      · exact ⟨rfl, Option.some.inj hp⟩
      · cases hp
    obtain ⟨rfl, rfl⟩ := hindex
    exact first hmark.leads (enter?_sugar hmark h.blanks 1) rfl hi
  | list hopen hi hc =>
    exact item hopen.leads (enter?_opener hopen h.blanks (.inl rfl) i) hi hp
  | vector hopen ho hi hc =>
    exact item hopen.leads (enter?_opener hopen h.blanks (.inr ho) i) hi hp
  | @dotted _ inside last _ _ _ items tail _ _ _ hopen hi hne hd hgap ht hcons hc =>
    have henter := enter?_opener hopen h.blanks (.inl rfl) i
    rcases Nat.lt_or_ge i items.length with hlt | hge
    · refine item hopen.leads henter hi ?_
      rwa [Located.child?, List.getElem?_append_left hlt] at hp
    · have hindex : i = items.length ∧ tail = part := by
        rw [Located.child?, List.getElem?_append_right hge] at hp
        rcases hsub : i - items.length with _ | k <;> rw [hsub] at hp
        · exact ⟨by omega, Option.some.inj hp⟩
        · cases hp
      obtain ⟨rfl, rfl⟩ := hindex
      obtain ⟨d, hpass, hstand, hleads⟩ := hi.passElements (Nat.le_refl _)
      rw [List.drop_length] at hstand
      cases hstand
      obtain ⟨here, hblanks, hdot, hafter⟩ := hd.atDot hgap
      obtain ⟨place, hblanks', hrests, -, hleads'⟩ := ht.rests
      refine ⟨place, _, ?_, hrests, hopen.leads.trans (hleads.trans (hd.leads.trans hleads'))⟩
      simp only [Reader.stepInto, henter, hpass, hblanks, hdot, ← hafter, hblanks', if_true, bind,
        Except.bind]

/-- Following steps ends where the part stands to which they lead. -/
theorem Rests.follow {part : Located} {steps : List Nat} (h : Rests c l next)
    (hp : steps.foldlM Located.child? l = some part) :
    ∃ d after, follow steps c = .ok d ∧ Rests d part after ∧ c.Leads d := by
  induction steps generalizing c l next with
  | nil =>
    cases hp
    exact ⟨c, next, rfl, h, .refl c⟩
  | cons i steps ih =>
    rw [List.foldlM_cons] at hp
    obtain ⟨child, hchild, hp⟩ := Option.bind_eq_some_iff.1 hp
    obtain ⟨d, after, hstep, hrests, hleads⟩ := h.stepInto hchild
    obtain ⟨e, after', hfollow, hrests', hleads'⟩ := ih hrests hp
    refine ⟨e, after', ?_, hrests', hleads.trans hleads'⟩
    simp only [Reader.follow, hstep, hfollow]

/-- A part of a datum to which no implied symbol leads is a part of what stands in the text. -/
theorem Rests.part {s : Value} {steps : List Nat} (h : Rests c l next)
    (hs : l.value.part? steps = some s) (himplied : l.meetsImplied steps = false) :
    ∃ part, l.part? steps = some part ∧ part.value = s := by
  induction steps generalizing c l next with
  | nil =>
    cases hs
    exact ⟨l, rfl, rfl⟩
  | cons i steps ih =>
    rw [Value.part?, List.foldlM_cons] at hs
    obtain ⟨v, hv, hs⟩ := Option.bind_eq_some_iff.1 hs
    rw [Located.meetsImplied, Bool.or_eq_false_iff] at himplied
    obtain ⟨child, hchild, rfl⟩ := h.stands.child hv himplied.1
    obtain ⟨d, after, -, hrests, -⟩ := h.stepInto hchild
    rw [hchild] at himplied
    obtain ⟨part, hpart, heq⟩ := ih hrests hs himplied.2
    refine ⟨part, ?_, heq⟩
    rw [Located.part?, List.foldlM_cons, hchild]
    exact hpart

theorem Located.meetsImplied_of_pos {steps : List Nat} (h : ∀ i ∈ steps, i ≠ 0) :
    l.meetsImplied steps = false := by
  induction steps generalizing l with
  | nil => rfl
  | cons i steps ih =>
    have hi : l.implies i = false := by
      unfold Located.implies
      split
      · exact (h 0 (by simp) rfl).elim
      · rfl
    have hrest : ∀ child : Located, child.meetsImplied steps = false :=
      fun _ => ih fun j hj => h j (List.mem_cons_of_mem i hj)
    simp [Located.meetsImplied, hi, hrest]

end Stepping

/-- Position recovery inverts reading. In a plain text every part of a datum that was read, but
for the symbols that abbreviations imply, is found at the offset at which it stands. There the
same part is read again. -/
theorem resolve_part {text : List Char} (h : isPlain text) {form : Value} {offset : Nat}
    (hform : (form, offset) ∈ (read text).forms) :
    (∃ l next, Stands (Cursor.of text offset) l next) ∧
      ∀ l next, Stands (Cursor.of text offset) l next → l.value = form ∧ l.start = offset ∧
        ∀ path s, form.part? path.reverse = some s → l.meetsImplied path.reverse = false →
          ∃ part after, l.part? path.reverse = some part ∧ part.value = s ∧
            resolve text offset path = .ok part.start ∧
            Stands (Cursor.of text part.start) part after ∧
            datum text.length (Cursor.of text part.start) = .ok (s, after) := by
  obtain ⟨l₀, next₀, hstands₀, hvalue, hblanks⟩ := read_found h _ hform
  have hfits : ∀ pos, (Cursor.of text pos).rest.length ≤ text.length := by
    intro pos
    simp [Cursor.of]
  refine ⟨⟨l₀, next₀, hstands₀⟩, fun l next hstands => ?_⟩
  have hrests : Rests (Cursor.of text offset) l next := ⟨hstands, hblanks⟩
  have hsame : l.value = form := by
    have heq := (hstands.datum_eq (hfits offset)).symm.trans (hstands₀.datum_eq (hfits offset))
    exact (Prod.mk.inj (Except.ok.inj heq)).1.trans hvalue
  refine ⟨hsame, hrests.pos.symm, fun path s hs himplied => ?_⟩
  subst hsame
  obtain ⟨part, hpart, rfl⟩ := hrests.part hs himplied
  obtain ⟨d, after, hfollow, hd, hleads⟩ := hrests.follow hpart
  have hplace : Cursor.of text part.start = d := by
    rw [← hd.pos]
    exact Cursor.Leads.of_eq
      (.trans ⟨offset, by simp [Cursor.of, Cursor.start, Cursor.drop]⟩ hleads)
  refine ⟨part, after, hpart, rfl, ?_, hplace ▸ hd.stands, ?_⟩
  · simp only [resolve, hblanks, hfollow, bind, Except.bind, pure, Except.pure, hd.pos]
  · rw [hplace]
    refine hd.stands.datum_eq ?_
    rw [← hplace]
    exact hfits _

/-- A string in a record in the tail of a quoted list, among comments and characters. -/
def nestedText : List Char :=
  "(a '(b . #s(c \"]\")) ; (\n ?\\) [d])".toList

theorem resolve_nestedString :
    isPlain nestedText ∧ ∃ form s, (form, 0) ∈ (read nestedText).forms ∧
      form.part? [1, 1, 1, 1] = some s ∧ s.strText? = some "]" ∧
      ∃ offset after, resolve nestedText 0 [1, 1, 1, 1] = .ok offset ∧
        datum nestedText.length (Cursor.of nestedText offset) = .ok (s, after) := by
  have hplain : isPlain nestedText := by decide +kernel
  have hoffset : (read nestedText).forms.head?.map (·.2) = some 0 := by decide +kernel
  have htext : ((read nestedText).forms.head?.bind (·.1.part? [1, 1, 1, 1])).bind Value.strText? =
      some "]" := by
    decide +kernel
  rcases hforms : (read nestedText).forms with _ | ⟨⟨form, offset⟩, rest⟩
  · rw [hforms] at hoffset
    cases hoffset
  · rw [hforms] at hoffset htext
    obtain rfl : offset = 0 := Option.some.inj hoffset
    obtain ⟨s, hs, hstr⟩ := Option.bind_eq_some_iff.1 htext
    have hform : (form, 0) ∈ (read nestedText).forms := by
      rw [hforms]
      exact List.mem_cons_self
    obtain ⟨⟨l, next, hstands⟩, hall⟩ := resolve_part hplain hform
    obtain ⟨-, -, hpaths⟩ := hall l next hstands
    obtain ⟨part, after, -, -, hresolve, -, hread⟩ :=
      hpaths [1, 1, 1, 1] s hs (Located.meetsImplied_of_pos (by simp))
    exact ⟨hplain, form, s, hforms ▸ hform, hs, hstr, part.start, after, hresolve, hread⟩

end Reader

end PatternLint
