import PatternLint.Proofs.Located

/-! Texts in which places can be found again: no labels and no character tables, and after a dot
only what is not a list. All that the reader reads from such a text stands in it. -/

namespace PatternLint.Reader

/-- The tokens from a place on, each with the place behind it. -/
def tokensFrom (c : Cursor) : List (Token × Cursor) :=
  match _h : token? true c with
  | .ok (some (tok, next)) => (tok, next) :: tokensFrom next
  | _ => []
termination_by c.rest.length
decreasing_by exact token?_shorter _h

/-- Whether a token is none of those that hide the place of data; the text has `size` characters. -/
def isPlainToken (size : Nat) (p : Token × Cursor) : Bool :=
  match p.1.lexeme with
  | .labelDef _ | .labelRef _ => false
  | .opener (.hashVector mark) => mark == "#["
  | .dot => p.2.atGap && match datum size p.2 with
    | .ok (tail, _) => !tail.isCons
    | .error _ => true
  | _ => true

def isPlain (text : List Char) : Bool :=
  (tokensFrom (Cursor.start text)).all (isPlainToken text.length)

/-- All tokens from a place on are plain. -/
structure Plain (size : Nat) (c : Cursor) : Prop where
  tokens : ∀ p ∈ tokensFrom c, isPlainToken size p
  fits : c.rest.length ≤ size

theorem bind_ok {ε α β : Type} {x : Except ε α} {k : α → Except ε β} {b : β}
    (h : x >>= k = .ok b) : ∃ a, x = .ok a ∧ k a = .ok b := by
  cases x with
  | error e => cases h
  | ok a => exact ⟨a, rfl, h⟩

section Plain

variable {size : Nat} {c next : Cursor} {tok : Token} {tolerant : Bool}

theorem tokensFrom_of_token (h : token? true c = .ok (some (tok, next))) :
    tokensFrom c = (tok, next) :: tokensFrom next := by
  rw [tokensFrom]
  split
  · rename_i h'
    rw [h] at h'
    cases h'
    rfl
  · rename_i hne
    exact (hne _ _ h).elim

theorem Plain.step (hc : Plain size c) (h : token? true c = .ok (some (tok, next))) :
    isPlainToken size (tok, next) ∧ Plain size next := by
  have htokens := tokensFrom_of_token h
  refine ⟨hc.tokens _ (by simp [htokens]), fun p hp => hc.tokens p (by simp [htokens, hp]), ?_⟩
  exact Nat.le_of_lt (Nat.lt_of_lt_of_le (token?_shorter h) hc.fits)

theorem Plain.token (hc : Plain size c) (h : token? false c = .ok (some (tok, next))) :
    isPlainToken size (tok, next) ∧ Plain size next :=
  hc.step (token?_tolerant h)

theorem nextToken_eq_ok (h : nextToken c = .ok (tok, next)) :
    token? false c = .ok (some (tok, next)) := by
  unfold nextToken at h
  split at h <;> cases h
  assumption

end Plain

section Standing

variable {size bound : Nat}

/-- What the reader makes of a token with this bound stands in the text. -/
def DatumStands (size bound : Nat) : Prop :=
  ∀ ⦃c tok inside r⦄, Plain size c → token? false c = .ok (some (tok, inside)) →
    datumFrom bound [] tok inside = .ok r → r.labels = [] ∧ Plain size r.next ∧
      ∃ l, Stands c l r.next ∧ l.value = r.value ∧ l.start = tok.start

/-- What ends a list: a closing mark, or a tail before it. -/
inductive Ends (last : Cursor) (items : List Value) : Value → Cursor → Prop
  | proper {next : Cursor} {stop : Nat} (hc : Takes last (.closer .paren) stop next) :
    Ends last items (.ofList items) next
  | dotted {after close next : Cursor} {tail : Located} {dot stop : Nat} (hne : items ≠ [])
    (hd : Takes last .dot dot after) (hgap : after.atGap) (ht : Stands after tail close)
    (hcons : tail.value.isCons = false) (hc : Takes close (.closer .paren) stop next) :
    Ends last items (.prepend items tail.value) next

def ListStands (size bound : Nat) : Prop :=
  ∀ ⦃c origin read r⦄, Plain size c → listFrom bound origin read [] c = .ok r →
    r.labels = [] ∧ Plain size r.next ∧ ∃ items last, AllStand c items last ∧
      Ends last (read.reverse ++ Located.values items) r.value r.next

def ItemsStand (size bound : Nat) : Prop :=
  ∀ ⦃c origin closer read r⦄, Plain size c → itemsFrom bound origin closer read [] c = .ok r →
    r.labels = [] ∧ Plain size r.next ∧ ∃ items last stop, AllStand c items last ∧
      Takes last (.closer closer) stop r.next ∧
        r.value = read.reverse ++ Located.values items

theorem itemsStand_succ (hd : DatumStands size bound) (hi : ItemsStand size bound) :
    ItemsStand size (bound + 1) := by
  intro c origin closer read r hc hrun
  rw [itemsFrom] at hrun
  obtain ⟨found, htok, h⟩ := bind_ok hrun
  clear hrun
  cases found with
  | none => cases h
  | some found =>
    obtain ⟨⟨lex, start, stop⟩, next⟩ := found
    have item : ∀ {run : Except Fault (Reading (List Value))},
        run = (do
          let v ← datumFrom bound [] ⟨lex, start, stop⟩ next
          itemsFrom bound origin closer (v.value :: read) v.labels v.next) →
        run = .ok r →
        r.labels = [] ∧ Plain size r.next ∧ ∃ items last stop, AllStand c items last ∧
          Takes last (.closer closer) stop r.next ∧
            r.value = read.reverse ++ Located.values items := by
      rintro _ rfl h
      obtain ⟨v, hv, h⟩ := bind_ok h
      obtain ⟨hlabels, hnext, l, hl, hvalue, -⟩ := hd hc htok hv
      rw [hlabels] at h
      obtain ⟨hlabels, hnext, items, last, stop, hitems, hlast, heq⟩ := hi hnext h
      refine ⟨hlabels, hnext, l :: items, last, stop, .cons hl hitems, hlast, ?_⟩
      rw [heq, Located.values, hvalue]
      simp
    cases lex with
    | closer k =>
      simp only at h
      split at h
      · rename_i hk
        subst hk
        cases h
        exact ⟨rfl, (hc.token htok).2, [], c, start, .nil, ⟨stop, htok⟩, by simp [Located.values]⟩
      · cases h
    | _ => exact item rfl h

theorem listStands_succ (hd : DatumStands size bound) (hl : ListStands size bound) :
    ListStands size (bound + 1) := by
  intro c origin read r hc hrun
  rw [listFrom] at hrun
  obtain ⟨found, htok, h⟩ := bind_ok hrun
  clear hrun
  cases found with
  | none => cases h
  | some found =>
    obtain ⟨⟨lex, start, stop⟩, next⟩ := found
    obtain ⟨hplain, hnext⟩ := hc.token htok
    have item : ∀ {run : Except Fault (Reading Value)},
        run = (do
          let v ← datumFrom bound [] ⟨lex, start, stop⟩ next
          listFrom bound origin (v.value :: read) v.labels v.next) →
        run = .ok r →
        r.labels = [] ∧ Plain size r.next ∧ ∃ items last, AllStand c items last ∧
          Ends last (read.reverse ++ Located.values items) r.value r.next := by
      rintro _ rfl h
      obtain ⟨v, hv, h⟩ := bind_ok h
      obtain ⟨hlabels, hnext, l, hstands, hvalue, -⟩ := hd hc htok hv
      rw [hlabels] at h
      obtain ⟨hlabels, hnext, items, last, hitems, hends⟩ := hl hnext h
      refine ⟨hlabels, hnext, l :: items, last, .cons hstands hitems, ?_⟩
      simpa [Located.values, hvalue] using hends
    cases lex with
    | closer k =>
      cases k with
      | paren =>
        cases h
        refine ⟨rfl, hnext, [], c, .nil, ?_⟩
        have hends : Ends c read.reverse (.ofList read.reverse) next := .proper ⟨stop, htok⟩
        simpa [Located.values] using hends
      | bracket => cases h
    | dot =>
      simp only at h
      split at h
      · cases h
      rename_i hne
      obtain ⟨⟨tok, afterTail⟩, htail, h⟩ := bind_ok h
      have htail := nextToken_eq_ok htail
      obtain ⟨v, hv, h⟩ := bind_ok h
      obtain ⟨hlabels, hafter, l, hstands, hvalue, -⟩ := hd hnext htail hv
      obtain ⟨found, hclose, h⟩ := bind_ok h
      simp only [isPlainToken, hstands.datum_eq hnext.fits, Bool.and_eq_true,
        Bool.not_eq_true'] at hplain
      split at h
      · rename_i dot close after
        cases h
        refine ⟨hlabels, (hafter.token hclose).2, [], c, .nil, ?_⟩
        rw [← hvalue]
        simp only [Located.values, List.append_nil]
        refine .dotted ?_ ⟨stop, htok⟩ hplain.1 hstands hplain.2 ⟨_, hclose⟩
        simpa using hne
      · cases h
    | _ => exact item rfl h

theorem datumStands_atom {lex : Lexeme} {v : Value} {c inside : Cursor} {start stop : Nat}
    {r : Reading Value} (hv : lex.datum? = some v)
    (htok : token? false c = .ok (some (⟨lex, start, stop⟩, inside)))
    (h : datumFrom (bound + 1) [] ⟨lex, start, stop⟩ inside = .ok r) :
    r.labels = [] ∧ r.next = inside ∧ Stands c (.atom start r.value) r.next := by
  rw [atom_reads hv] at h
  cases h
  exact ⟨rfl, rfl, .atom ⟨stop, htok⟩ hv⟩

/-- A datum that opens with a bracket is its items, and a closing mark behind them. -/
theorem datumStands_opener (hl : ListStands size bound) (hi : ItemsStand size bound) {o : Opener}
    {c inside : Cursor} {start stop : Nat} {r : Reading Value} (hinside : Plain size inside)
    (hplain : isPlainToken size (⟨.opener o, start, stop⟩, inside))
    (htok : token? false c = .ok (some (⟨.opener o, start, stop⟩, inside)))
    (h : datumFrom (bound + 1) [] ⟨.opener o, start, stop⟩ inside = .ok r) :
    r.labels = [] ∧ Plain size r.next ∧
      ∃ l, Stands c l r.next ∧ l.value = r.value ∧ l.start = start := by
  by_cases ho : o.isVector
  · rw [datumFrom_vector ho] at h
    obtain ⟨v, hv, h⟩ := bind_ok h
    obtain ⟨hlabels, hnext, items, last, close, hitems, hclose, hvalue⟩ := hi hinside hv
    cases h
    refine ⟨hlabels, hnext, .vector start items, .vector ⟨stop, htok⟩ ho hitems hclose, ?_, rfl⟩
    rw [Located.value, hvalue]
    rfl
  · cases o with
    | list =>
      simp only [datumFrom] at h
      obtain ⟨hlabels, hnext, items, last, hitems, hends⟩ := hl hinside h
      refine ⟨hlabels, hnext, ?_⟩
      generalize r.value = v at hends ⊢
      generalize r.next = next at hends ⊢
      cases hends with
      | proper hclose => exact ⟨.list start items, .list ⟨stop, htok⟩ hitems hclose, rfl, rfl⟩
      | dotted hne hdot hgap htail hcons hclose =>
        refine ⟨.dotted start items _, ?_, rfl, rfl⟩
        refine .dotted ⟨stop, htok⟩ hitems ?_ hdot hgap htail hcons hclose
        rintro rfl
        exact hne rfl
    | properties =>
      simp only [datumFrom] at h
      obtain ⟨v, hv, h⟩ := bind_ok h
      obtain ⟨hlabels, hnext, items, last, close, hitems, hclose, hvalue⟩ := hi hinside hv
      split at h
      · rename_i text htext
        cases h
        rw [hvalue] at htext
        exact ⟨hlabels, hnext, .atom start text, .properties ⟨stop, htok⟩ hitems hclose htext,
          rfl, rfl⟩
      · cases h
    | vector => exact (ho rfl).elim
    | record => exact (ho rfl).elim
    | hashVector mark =>
      simp only [isPlainToken, beq_iff_eq] at hplain
      subst hplain
      exact (ho (by decide)).elim

theorem datumStands_succ (hd : DatumStands size bound) (hl : ListStands size bound)
    (hi : ItemsStand size bound) : DatumStands size (bound + 1) := by
  rintro c ⟨lex, start, stop⟩ inside r hc htok h
  obtain ⟨hplain, hinside⟩ := hc.token htok
  have atom : ∀ {v : Value}, lex.datum? = some v → r.labels = [] ∧ Plain size r.next ∧
      ∃ l, Stands c l r.next ∧ l.value = r.value ∧ l.start = start := by
    intro v hv
    obtain ⟨hlabels, hnext, hstands⟩ := datumStands_atom hv htok h
    exact ⟨hlabels, hnext ▸ hinside, _, hstands, rfl, rfl⟩
  -- What follows a mark that one datum belongs to.
  have inner : ∀ {k : Reading Value → Except Fault (Reading Value)},
      (do
        let p ← nextToken inside
        let v ← datumFrom bound [] p.1 p.2
        k v) = .ok r →
      ∃ v l, k v = .ok r ∧ v.labels = [] ∧ Plain size v.next ∧ Stands inside l v.next ∧
        l.value = v.value := by
    intro k h
    obtain ⟨⟨tok, next⟩, hnext, h⟩ := bind_ok h
    obtain ⟨v, hv, h⟩ := bind_ok h
    obtain ⟨hlabels, hplain, l, hstands, hvalue, -⟩ := hd hinside (nextToken_eq_ok hnext) hv
    exact ⟨v, l, h, hlabels, hplain, hstands, hvalue⟩
  cases lex with
  | atom text escaped =>
    have hok : ∃ v, atomValue text escaped = .ok v := by
      cases hv : atomValue text escaped with
      | error f =>
        simp only [datumFrom, hv] at h
        cases h
      | ok v => exact ⟨v, rfl⟩
    obtain ⟨v, hv⟩ := hok
    exact atom (v := v) (by simp only [Lexeme.datum?, hv]; rfl)
  | string text => exact atom rfl
  | char code => exact atom rfl
  | number n => exact atom rfl
  | sugar mark =>
    simp only [datumFrom] at h
    obtain ⟨v, l, h, hlabels, hnext, hstands, hvalue⟩ := inner h
    cases h
    refine ⟨hlabels, hnext, .sugar start mark l, .sugar ⟨stop, htok⟩ hstands, ?_, rfl⟩
    rw [Located.value, hvalue]
  | boolVector mark =>
    simp only [datumFrom] at h
    obtain ⟨v, l, h, hlabels, hnext, hstands, hvalue⟩ := inner h
    split at h
    · rename_i text htext
      cases h
      rw [htext] at hvalue
      exact ⟨hlabels, hnext, .atom start (.vec []), .boolVector ⟨stop, htok⟩ hstands hvalue, rfl,
        rfl⟩
    · cases h
  | labelDef label => cases hplain
  | labelRef label => cases hplain
  | dot =>
    simp only [datumFrom] at h
    cases h
  | closer k =>
    simp only [datumFrom] at h
    cases h
  | extension =>
    simp only [datumFrom] at h
    cases h
  | opener o => exact datumStands_opener hl hi hinside hplain htok h

theorem reading_stands (size bound : Nat) :
    DatumStands size bound ∧ ListStands size bound ∧ ItemsStand size bound := by
  induction bound with
  | zero =>
    refine ⟨fun _ _ _ _ _ _ h => ?_, fun _ _ _ _ _ h => ?_, fun _ _ _ _ _ _ h => ?_⟩
    · rw [datumFrom] at h
      cases h
    · rw [listFrom] at h
      cases h
    · rw [itemsFrom] at h
      cases h
  | succ bound ih =>
    obtain ⟨hd, hl, hi⟩ := ih
    exact ⟨datumStands_succ hd hl hi, listStands_succ hd hl, itemsStand_succ hd hi⟩

theorem datum_stands {c next : Cursor} {v : Value} (hc : Plain size c)
    (h : datum size c = .ok (v, next)) :
    Plain size next ∧ ∃ l, Stands c l next ∧ l.value = v := by
  obtain ⟨⟨tok, inside⟩, htok, h⟩ := bind_ok h
  obtain ⟨r, hr, h⟩ := bind_ok h
  obtain ⟨-, hnext, l, hl, hvalue, -⟩ := (reading_stands size _).1 hc (nextToken_eq_ok htok) hr
  cases h
  exact ⟨hnext, l, hl, hvalue⟩

end Standing

section Read

variable {text : List Char} {size bound origin depth : Nat} {c next here : Cursor}

theorem Plain.blanks (hc : Plain size c) (h : skipBlanks c = .ok here) : Plain size here := by
  refine ⟨?_, Nat.le_trans (skipBlanks_shorter h) hc.fits⟩
  have htoken : token? true here = token? true c := token?_of_blanks h
  have heq : tokensFrom here = tokensFrom c := by
    rw [tokensFrom, tokensFrom]
    split
    · rename_i htok
      split
      · rename_i htok'
        rw [htoken, htok'] at htok
        cases htok
        rfl
      · rename_i hne
        exact (hne _ _ (htoken ▸ htok)).elim
    · rename_i hne
      split
      · rename_i htok
        exact (hne _ _ (htoken.trans htok)).elim
      · rfl
  rw [heq]
  exact hc.tokens

theorem Plain.onward {tok : Token} {mid : Cursor} (hc : Plain size c)
    (htok : token? true c = .ok (some (tok, mid)))
    (h : Plain size mid → Plain size next ∧ mid.Leads next) : Plain size next ∧ c.Leads next :=
  ⟨(h (hc.step htok).2).1, (token?_leads htok).trans (h (hc.step htok).2).2⟩

theorem Plain.skips (hc : Plain size c) (h : skipFrom origin depth c = .ok next) :
    Plain size next ∧ c.Leads next := by
  fun_induction skipFrom origin depth c with
  | case1 | case2 | case4 => cases h
  | case5 c tok mid htok =>
    cases h
    exact hc.onward htok fun hmid => ⟨hmid, .refl _⟩
  | case12 _ tok mid htok =>
    cases h
    exact hc.onward htok fun hmid => ⟨hmid, .refl _⟩
  | case13 _ c tok mid htok _ _ _ _ _ _ _ _ ih => exact hc.onward htok (ih · h)
  | case3 _ c tok mid htok _ _ ih => exact hc.onward htok (ih · h)
  | case6 c tok mid htok _ _ _ ih => exact hc.onward htok (ih · h)
  | case7 _ c tok mid htok _ _ ih => exact hc.onward htok (ih · h)
  | case8 _ c tok mid htok _ _ ih => exact hc.onward htok (ih · h)
  | case9 _ c tok mid htok _ _ ih => exact hc.onward htok (ih · h)
  | case10 _ c tok mid htok _ ih => exact hc.onward htok (ih · h)
  | case11 _ c tok mid htok _ ih => exact hc.onward htok (ih · h)

/-- What is read from a text stands at its offset. -/
def Found (text : List Char) (p : Value × Nat) : Prop :=
  ∃ l next, Stands (Cursor.of text p.2) l next ∧ l.value = p.1 ∧
    skipBlanks (Cursor.of text p.2) = .ok (Cursor.of text p.2)

theorem readFrom_found {forms : List (Value × Nat)} (hc : Plain size c)
    (hstart : (Cursor.start text).Leads c) (hforms : ∀ p ∈ forms, Found text p) :
    ∀ p ∈ (readFrom size bound forms c).forms, Found text p := by
  induction bound generalizing forms c with
  | zero => simpa [readFrom] using hforms
  | succ bound ih =>
    rw [readFrom]
    split
    · simpa using hforms
    rename_i here hhere
    have hplain := hc.blanks hhere
    have hlead := hstart.trans (skipBlanks_leads hhere)
    split
    · simpa using hforms
    split
    · rename_i v next hv
      obtain ⟨hnext, l, hl, hvalue⟩ := datum_stands hplain hv
      refine ih hnext (hlead.trans hl.leads) fun p hp => ?_
      rcases List.mem_cons.1 hp with rfl | hp
      · refine ⟨l, next, ?_, hvalue, ?_⟩
        · rw [hlead.of_eq]
          exact hl
        · rw [hlead.of_eq]
          exact skipBlanks_idem hhere
      · exact hforms p hp
    · split
      · rename_i next hskip
        obtain ⟨hnext, hleads⟩ := hplain.skips hskip
        exact ih hnext (hlead.trans hleads) hforms
      · simpa using hforms
    · simpa using hforms

/-- All data that are read from a plain text stand in it. -/
theorem read_found (h : isPlain text) : ∀ p ∈ (read text).forms, Found text p := by
  have hplain : Plain text.length (Cursor.start text) := ⟨List.all_eq_true.1 h, Nat.le_refl _⟩
  exact readFrom_found hplain (.refl _) nofun

end Read

end PatternLint.Reader
