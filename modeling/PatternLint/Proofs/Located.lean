import PatternLint.Proofs.Lexing

/-! Data with the places they stand at. What the reader reads from a text stands there, and what
stands in a text is what the reader reads from it. -/

namespace PatternLint.Reader

/-- A datum with the place of its first character, and the data in it likewise. -/
inductive Located where
  | atom (start : Nat) (value : Value)
  | sugar (start : Nat) (mark : Sugar) (inner : Located)
  | list (start : Nat) (items : List Located)
  | dotted (start : Nat) (items : List Located) (tail : Located)
  | vector (start : Nat) (items : List Located)

namespace Located

def start : Located → Nat
  | .atom start _ | .sugar start _ _ | .list start _ | .dotted start _ _ | .vector start _ => start

mutual

def value : Located → Value
  | .atom _ value => value
  | .sugar _ mark inner => .list [.sym mark.symbol, inner.value]
  | .list _ items => .ofList (values items)
  | .dotted _ items tail => .prepend (values items) tail.value
  | .vector _ items => .vec (values items)

def values : List Located → List Value
  | [] => []
  | l :: items => l.value :: values items

end

theorem values_eq_map (items : List Located) : values items = items.map value := by
  induction items with
  | nil => rfl
  | cons l items ih => rw [values, ih, List.map_cons]

end Located

/-- The datum of a token that is one by itself. -/
def Lexeme.datum? : Lexeme → Option Value
  | .atom text escaped => (atomValue text escaped).toOption
  | .string text => some (.str text)
  | .char code => some (.int code)
  | .number n => some (.int n)
  | _ => none

/-- Structures the elements of which can be told apart by stepping over data. -/
def Opener.isVector (o : Opener) : Bool :=
  o == .vector || o == .hashVector "#[" || o == .record

/-- White space or a parenthesis comes next. -/
def Cursor.atGap (c : Cursor) : Bool :=
  c.rest.head?.any fun x => Text.isBlank x || x == '(' || x == ')'

/-- The first token at `c`. -/
def Takes (c : Cursor) (l : Lexeme) (start : Nat) (next : Cursor) : Prop :=
  ∃ stop, token? false c = .ok (some (⟨l, start, stop⟩, next))

mutual

/-- The tokens between two places are those of a datum. A tail that is itself a list does not stand
after a dot. -/
inductive Stands : Cursor → Located → Cursor → Prop
  | atom {c next : Cursor} {l : Lexeme} {start : Nat} {v : Value} (h : Takes c l start next)
    (hv : l.datum? = some v) : Stands c (.atom start v) next
  | properties {c inside last next : Cursor} {items : List Located} {start stop : Nat} {v : Value}
    (h : Takes c (.opener .properties) start inside) (hi : AllStand inside items last)
    (hc : Takes last (.closer .paren) stop next)
    (hv : firstString? (Located.values items) = some v) : Stands c (.atom start v) next
  | boolVector {c inside next : Cursor} {l : Located} {start : Nat} {mark text : String}
    (h : Takes c (.boolVector mark) start inside) (hi : Stands inside l next)
    (hv : l.value = .str text) : Stands c (.atom start (.vec [])) next
  | sugar {c inside next : Cursor} {l : Located} {start : Nat} {mark : Sugar}
    (h : Takes c (.sugar mark) start inside) (hi : Stands inside l next) :
    Stands c (.sugar start mark l) next
  | list {c inside last next : Cursor} {items : List Located} {start stop : Nat}
    (h : Takes c (.opener .list) start inside) (hi : AllStand inside items last)
    (hc : Takes last (.closer .paren) stop next) : Stands c (.list start items) next
  | dotted {c inside last after close next : Cursor} {items : List Located} {tail : Located}
    {start dot stop : Nat} (h : Takes c (.opener .list) start inside)
    (hi : AllStand inside items last) (hne : items ≠ []) (hd : Takes last .dot dot after)
    (hgap : after.atGap) (ht : Stands after tail close) (hcons : tail.value.isCons = false)
    (hc : Takes close (.closer .paren) stop next) : Stands c (.dotted start items tail) next
  | vector {c inside last next : Cursor} {items : List Located} {o : Opener} {start stop : Nat}
    (h : Takes c (.opener o) start inside) (ho : o.isVector) (hi : AllStand inside items last)
    (hc : Takes last (.closer o.closer) stop next) : Stands c (.vector start items) next

/-- The tokens between two places are those of some data. -/
inductive AllStand : Cursor → List Located → Cursor → Prop
  | nil {c : Cursor} : AllStand c [] c
  | cons {c mid last : Cursor} {l : Located} {items : List Located} (h : Stands c l mid)
    (hs : AllStand mid items last) : AllStand c (l :: items) last

end

section Reading

variable {c d next last : Cursor} {l : Located} {lex : Lexeme} {items : List Located} {start : Nat}

/-- What stands behind blanks stands before them. -/
theorem Stands.of_skipBlanks (h : Stands c l next) (hb : skipBlanks d = skipBlanks c) :
    Stands d l next := by
  have htok : token? false d = token? false c := by
    simp only [token?, hb]
  have takes : ∀ {lex start inside}, Takes c lex start inside → Takes d lex start inside :=
    fun h => h.imp fun _ => htok.trans
  cases h with
  | atom h hv => exact .atom (takes h) hv
  | properties h hi hc hv => exact .properties (takes h) hi hc hv
  | boolVector h hi hv => exact .boolVector (takes h) hi hv
  | sugar h hi => exact .sugar (takes h) hi
  | list h hi hc => exact .list (takes h) hi hc
  | dotted h hi hne hd hgap ht hcons hc => exact .dotted (takes h) hi hne hd hgap ht hcons hc
  | vector h ho hi hc => exact .vector (takes h) ho hi hc

/-- A datum stands behind blanks as it does before them. -/
theorem Stands.behindBlanks (h : Stands c l next) (hs : skipBlanks c = .ok d) : Stands d l next :=
  h.of_skipBlanks ((skipBlanks_idem hs).trans hs.symm)

theorem Takes.shorter (h : Takes c lex start next) : next.rest.length < c.rest.length := by
  obtain ⟨stop, h⟩ := h
  exact token?_shorter h

/-- Tokens that begin a datum. -/
def Lexeme.begins : Lexeme → Bool
  | .closer _ | .dot | .extension | .labelDef _ | .labelRef _ => false
  | _ => true

mutual

/-- A datum takes some of the text, and the tokens of its parts are in between. -/
theorem Stands.shorter {c next : Cursor} {l : Located} :
    Stands c l next → next.rest.length < c.rest.length
  | .atom h hv => h.shorter
  | .properties h hi hc hv => by
    have := h.shorter
    have := hi.shorter
    have := hc.shorter
    omega
  | .boolVector h hi hv => Nat.lt_trans hi.shorter h.shorter
  | .sugar h hi => Nat.lt_trans hi.shorter h.shorter
  | .list h hi hc => by
    have := h.shorter
    have := hi.shorter
    have := hc.shorter
    omega
  | .dotted h hi hne hd hgap ht hcons hc => by
    have := h.shorter
    have := hi.shorter
    have := hd.shorter
    have := ht.shorter
    have := hc.shorter
    omega
  | .vector h ho hi hc => by
    have := h.shorter
    have := hi.shorter
    have := hc.shorter
    omega

theorem AllStand.shorter {c last : Cursor} {items : List Located} :
    AllStand c items last → last.rest.length ≤ c.rest.length
  | .nil => Nat.le_refl _
  | .cons h hs => Nat.le_trans hs.shorter (Nat.le_of_lt h.shorter)

end

theorem Takes.leads {c next : Cursor} {lex : Lexeme} {start : Nat} (h : Takes c lex start next) :
    c.Leads next := by
  obtain ⟨stop, h⟩ := h
  exact token?_leads h

mutual

/-- Reading a datum reads on in the text. -/
theorem Stands.leads {c next : Cursor} {l : Located} : Stands c l next → c.Leads next
  | .atom h _ => h.leads
  | .properties h hi hc _ => h.leads.trans (hi.leads.trans hc.leads)
  | .boolVector h hi _ => h.leads.trans hi.leads
  | .sugar h hi => h.leads.trans hi.leads
  | .list h hi hc => h.leads.trans (hi.leads.trans hc.leads)
  | .dotted h hi _ hd _ ht _ hc =>
    h.leads.trans (hi.leads.trans (hd.leads.trans (ht.leads.trans hc.leads)))
  | .vector h _ hi hc => h.leads.trans (hi.leads.trans hc.leads)

theorem AllStand.leads {c last : Cursor} {items : List Located} :
    AllStand c items last → c.Leads last
  | .nil => .refl _
  | .cons h hs => h.leads.trans hs.leads

end

theorem begins_of_datum {v : Value} (hv : lex.datum? = some v) : lex.begins := by
  cases lex <;> first | rfl | cases hv

/-- A datum begins with a token that begins data. -/
theorem Stands.takes (h : Stands c l next) :
    ∃ lex inside, Takes c lex l.start inside ∧ lex.begins := by
  cases h with
  | atom h hv => exact ⟨_, _, h, begins_of_datum hv⟩
  | properties h => exact ⟨_, _, h, rfl⟩
  | boolVector h => exact ⟨_, _, h, rfl⟩
  | sugar h => exact ⟨_, _, h, rfl⟩
  | list h => exact ⟨_, _, h, rfl⟩
  | dotted h => exact ⟨_, _, h, rfl⟩
  | vector h => exact ⟨_, _, h, rfl⟩

theorem atom_reads {v : Value} (hv : lex.datum? = some v) (bound : Nat) (labels : Labels)
    (start stop : Nat) (c : Cursor) :
    datumFrom (bound + 1) labels ⟨lex, start, stop⟩ c = .ok ⟨v, labels, c⟩ := by
  cases lex with
  | atom text escaped =>
    simp only [Lexeme.datum?] at hv
    cases ha : atomValue text escaped with
    | error f => rw [ha] at hv; cases hv
    | ok u =>
      rw [ha] at hv
      cases hv
      simp only [datumFrom, ha]
      rfl
  | string text => cases hv; rfl
  | char code => cases hv; rfl
  | number n => cases hv; rfl
  | _ => cases hv

/-- A closing bracket ends the items that it belongs to. -/
theorem Takes.closes {closer : Closer} {bound : Nat} {origin : Nat} {read : List Value}
    {labels : Labels} (h : Takes c (.closer closer) start next) :
    itemsFrom (bound + 1) origin closer read labels c = .ok ⟨read.reverse, labels, next⟩ := by
  obtain ⟨stop, h⟩ := h
  simp only [itemsFrom, h]
  exact if_pos rfl

theorem Takes.closesList {bound : Nat} {origin : Nat} {read : List Value} {labels : Labels}
    (h : Takes c (.closer .paren) start next) :
    listFrom (bound + 1) origin read labels c =
      .ok ⟨Value.ofList read.reverse, labels, next⟩ := by
  obtain ⟨stop, h⟩ := h
  simp only [listFrom, h]
  rfl

/-- Behind a dot there is one datum and the closing bracket. -/
theorem Takes.dots {after close : Cursor} {bound origin stop dot : Nat} {read : List Value}
    {labels : Labels} {tok : Token} {inside : Cursor} {v : Value} (h : Takes c .dot dot after)
    (hread : read ≠ []) (htok : token? false after = .ok (some (tok, inside)))
    (htail : datumFrom bound labels tok inside = .ok ⟨v, labels, close⟩)
    (hc : Takes close (.closer .paren) stop next) :
    listFrom (bound + 1) origin read labels c =
      .ok ⟨Value.prepend read.reverse v, labels, next⟩ := by
  obtain ⟨_, h⟩ := h
  obtain ⟨_, hc⟩ := hc
  have hempty : read.isEmpty = false := by simpa using hread
  simp only [listFrom, h, nextToken, htok, htail, hc, hempty, bind, Except.bind, pure, Except.pure]
  rfl

/-- Vectors are read up to their own bracket. -/
theorem datumFrom_vector {o : Opener} (ho : o.isVector) (bound start stop : Nat) (labels : Labels)
    (c : Cursor) :
    datumFrom (bound + 1) labels ⟨.opener o, start, stop⟩ c = (do
      let r ← itemsFrom bound start o.closer [] labels c
      return ⟨.vec r.value, r.labels, r.next⟩) := by
  cases o <;> first | rfl | exact absurd ho (by decide)

/-- In a list, a token that begins a datum is read as one, and the list goes on behind. -/
theorem listFrom_begins {lex : Lexeme} {inside mid : Cursor} {bound start stop : Nat} {v : Value}
    {labels : Labels} (htok : token? false c = .ok (some (⟨lex, start, stop⟩, inside)))
    (hlex : lex.begins)
    (hv : datumFrom bound labels ⟨lex, start, stop⟩ inside = .ok ⟨v, labels, mid⟩)
    (origin : Nat) (read : List Value) :
    listFrom (bound + 1) origin read labels c = listFrom bound origin (v :: read) labels mid := by
  cases lex with
  | closer k => cases hlex
  | dot => cases hlex
  | _ => simp only [listFrom, htok, hv, bind, Except.bind]

theorem itemsFrom_begins {lex : Lexeme} {inside mid : Cursor} {bound start stop : Nat} {v : Value}
    {labels : Labels} (htok : token? false c = .ok (some (⟨lex, start, stop⟩, inside)))
    (hlex : lex.begins)
    (hv : datumFrom bound labels ⟨lex, start, stop⟩ inside = .ok ⟨v, labels, mid⟩)
    (origin : Nat) (closer : Closer) (read : List Value) :
    itemsFrom (bound + 1) origin closer read labels c =
      itemsFrom bound origin closer (v :: read) labels mid := by
  cases lex with
  | closer k => cases hlex
  | _ => simp only [itemsFrom, htok, hv, bind, Except.bind]

theorem reverse_values_ne_nil (h : items ≠ []) : (Located.values items).reverse ≠ [] := by
  simpa [Located.values_eq_map] using h

mutual

/-- What stands in a text is read from it, whatever labels are known. -/
theorem Stands.reads {c next : Cursor} {l : Located} : Stands c l next →
    ∀ {bound : Nat}, 2 * c.rest.length ≤ bound → ∀ labels, ∃ lex stop inside,
      token? false c = .ok (some (⟨lex, l.start, stop⟩, inside)) ∧ lex.begins ∧
        datumFrom bound labels ⟨lex, l.start, stop⟩ inside = .ok ⟨l.value, labels, next⟩
  | .atom h hv, bound, hb, labels => by
    have := h.shorter
    obtain ⟨bound, rfl⟩ : ∃ n, bound = n + 1 := ⟨bound - 1, by omega⟩
    obtain ⟨stop, h⟩ := h
    exact ⟨_, stop, _, h, begins_of_datum hv, atom_reads hv _ _ _ _ _⟩
  | .properties h hi hc hv, bound, hb, labels => by
    have := h.shorter
    obtain ⟨bound, rfl⟩ : ∃ n, bound = n + 1 := ⟨bound - 1, by omega⟩
    obtain ⟨n, hn, hread⟩ := hi.reads (show _ ≤ bound by omega)
    obtain ⟨n, rfl⟩ : ∃ k, n = k + 1 := ⟨n - 1, by omega⟩
    obtain ⟨stop, h⟩ := h
    refine ⟨_, stop, _, h, rfl, ?_⟩
    simp only [datumFrom, (hread _ _ _).2, hc.closes, List.append_nil, List.reverse_reverse, hv,
      bind, Except.bind, pure, Except.pure, Located.value]
  | .boolVector h hi hv, bound, hb, labels => by
    have := h.shorter
    obtain ⟨bound, rfl⟩ : ∃ n, bound = n + 1 := ⟨bound - 1, by omega⟩
    obtain ⟨lex, stop, inside, htok, -, hread⟩ := hi.reads (show _ ≤ bound by omega) labels
    obtain ⟨stop, h⟩ := h
    refine ⟨_, stop, _, h, rfl, ?_⟩
    simp only [datumFrom, nextToken, htok, hread, hv, bind, Except.bind, pure, Except.pure,
      Located.value]
  | .sugar h hi, bound, hb, labels => by
    have := h.shorter
    obtain ⟨bound, rfl⟩ : ∃ n, bound = n + 1 := ⟨bound - 1, by omega⟩
    obtain ⟨lex, stop, inside, htok, -, hread⟩ := hi.reads (show _ ≤ bound by omega) labels
    obtain ⟨stop, h⟩ := h
    refine ⟨_, stop, _, h, rfl, ?_⟩
    simp only [datumFrom, nextToken, htok, hread, bind, Except.bind, pure, Except.pure,
      Located.value]
  | .list h hi hc, bound, hb, labels => by
    have := h.shorter
    obtain ⟨bound, rfl⟩ : ∃ n, bound = n + 1 := ⟨bound - 1, by omega⟩
    obtain ⟨n, hn, hread⟩ := hi.reads (show _ ≤ bound by omega)
    obtain ⟨n, rfl⟩ : ∃ k, n = k + 1 := ⟨n - 1, by omega⟩
    obtain ⟨stop, h⟩ := h
    refine ⟨_, stop, _, h, rfl, ?_⟩
    simp only [datumFrom, (hread _ _ _).1, hc.closesList, List.append_nil, List.reverse_reverse,
      Located.value]
  | .dotted h hi hne hd hgap ht hcons hc, bound, hb, labels => by
    have := h.shorter
    have := hd.shorter
    have := hi.shorter
    obtain ⟨bound, rfl⟩ : ∃ n, bound = n + 1 := ⟨bound - 1, by omega⟩
    obtain ⟨n, hn, hread⟩ := hi.reads (show _ ≤ bound by omega)
    obtain ⟨n, rfl⟩ : ∃ k, n = k + 1 := ⟨n - 1, by omega⟩
    obtain ⟨lex, stop, inside, htok, -, htail⟩ := ht.reads (show _ ≤ n by omega) labels
    obtain ⟨stop, h⟩ := h
    refine ⟨_, stop, _, h, rfl, ?_⟩
    simp only [datumFrom, (hread _ _ _).1, List.append_nil,
      hd.dots (reverse_values_ne_nil hne) htok htail hc, List.reverse_reverse, Located.value]
  | .vector h ho hi hc, bound, hb, labels => by
    have := h.shorter
    obtain ⟨bound, rfl⟩ : ∃ n, bound = n + 1 := ⟨bound - 1, by omega⟩
    obtain ⟨n, hn, hread⟩ := hi.reads (show _ ≤ bound by omega)
    obtain ⟨n, rfl⟩ : ∃ k, n = k + 1 := ⟨n - 1, by omega⟩
    obtain ⟨stop, h⟩ := h
    refine ⟨_, stop, _, h, rfl, ?_⟩
    rw [datumFrom_vector ho]
    simp only [(hread _ _ _).2, hc.closes, List.append_nil, List.reverse_reverse, bind, Except.bind,
      pure, Except.pure, Located.value]

/-- Data that stand one after the other are read one after the other; the bound is paid by the text
that they take. -/
theorem AllStand.reads {c last : Cursor} {items : List Located} : AllStand c items last →
    ∀ {bound : Nat}, 2 * c.rest.length + 1 ≤ bound →
    ∃ bound', 2 * last.rest.length + 1 ≤ bound' ∧ ∀ origin read labels,
      listFrom bound origin read labels c =
        listFrom bound' origin ((Located.values items).reverse ++ read) labels last ∧
      ∀ closer, itemsFrom bound origin closer read labels c =
        itemsFrom bound' origin closer ((Located.values items).reverse ++ read) labels last
  | .nil, bound, hb => ⟨bound, hb, fun _ _ _ => ⟨rfl, fun _ => rfl⟩⟩
  | .cons h hs, bound, hb => by
    obtain ⟨bound, rfl⟩ : ∃ n, bound = n + 1 := ⟨bound - 1, by omega⟩
    have hlen := h.shorter
    obtain ⟨n, hn, hrest⟩ := hs.reads (show _ ≤ bound by omega)
    refine ⟨n, hn, fun origin read labels => ?_⟩
    obtain ⟨lex, stop, inside, htok, hlex, hv⟩ := h.reads (show _ ≤ bound by omega) labels
    obtain ⟨hlist, hitems⟩ := hrest origin (Located.value _ :: read) labels
    simp only [Located.values, List.reverse_cons, List.append_assoc, List.singleton_append]
    refine ⟨?_, fun closer => ?_⟩
    · rw [listFrom_begins htok hlex hv, hlist]
    · rw [itemsFrom_begins htok hlex hv, hitems]

end

/-- What stands at a place is what is read there. -/
theorem Stands.datum_eq {size : Nat} (h : Stands c l next) (hsize : c.rest.length ≤ size) :
    datum size c = .ok (l.value, next) := by
  have hbound : 2 * c.rest.length ≤ 2 * size + 2 := by omega
  obtain ⟨lex, stop, inside, htok, -, hread⟩ := h.reads hbound []
  simp only [datum, nextToken, htok, hread, bind, Except.bind, pure, Except.pure]

end Reading

section Skipping

variable {c next last : Cursor} {lex : Lexeme} {start : Nat}

/-- Skipping goes from token to token. -/
theorem skipFrom_of_token {tok : Token} (h : token? true c = .ok (some (tok, next)))
    (origin depth : Nat) :
    skipFrom origin depth c = match tok.lexeme with
      | .opener _ => skipFrom origin (depth + 1) next
      | .closer k =>
        match depth with
        | 0 => malformed tok.start (.badSyntax k.text)
        | 1 => .ok next
        | d + 2 => skipFrom origin (d + 1) next
      | .sugar _ | .labelDef _ | .boolVector _ | .extension | .dot => skipFrom origin depth next
      | _ => if depth = 0 then .ok next else skipFrom origin depth next := by
  rw [skipFrom]
  split
  · rename_i h'
    rw [h] at h'
    cases h'
  · rename_i h'
    rw [h] at h'
    cases h'
  · rename_i h'
    rw [h] at h'
    cases h'
    rfl

theorem skipFrom_of_error {f : Fault} (h : token? true c = .error f) (origin depth : Nat) :
    skipFrom origin depth c = .error f := by
  rw [skipFrom]
  split <;> simp_all

theorem skipFrom_of_none (h : token? true c = .ok none) (origin depth : Nat) :
    skipFrom origin depth c = malformed origin .endOfFile := by
  rw [skipFrom]
  split <;> simp_all

/-- Where something is passed there is a token. -/
theorem token?_of_skipFrom {origin depth : Nat} (h : skipFrom origin depth c = .ok next) :
    ∃ tok mid, token? true c = .ok (some (tok, mid)) := by
  cases htok : token? true c with
  | error f =>
    rw [skipFrom_of_error htok] at h
    cases h
  | ok r =>
    cases r with
    | none =>
      rw [skipFrom_of_none htok] at h
      cases h
    | some t => exact ⟨t.1, t.2, rfl⟩

theorem Takes.skips (origin depth : Nat) : Takes c lex start next →
    skipFrom origin depth c = match lex with
      | .opener _ => skipFrom origin (depth + 1) next
      | .closer k =>
        match depth with
        | 0 => malformed start (.badSyntax k.text)
        | 1 => .ok next
        | d + 2 => skipFrom origin (d + 1) next
      | .sugar _ | .labelDef _ | .boolVector _ | .extension | .dot => skipFrom origin depth next
      | _ => if depth = 0 then .ok next else skipFrom origin depth next := by
  rintro ⟨stop, h⟩
  rw [skipFrom_of_token (token?_tolerant h)]

/-- Behind a closing mark the structure that it closes has been passed. -/
theorem Takes.skips_closer {k : Closer} (h : Takes c (.closer k) start next) (origin depth : Nat) :
    skipFrom origin (depth + 1) c = if depth = 0 then .ok next else skipFrom origin depth next := by
  rw [h.skips]
  cases depth <;> rfl

mutual

/-- Stepping over tokens passes the whole of a datum. -/
theorem Stands.skips {c next : Cursor} {l : Located} : Stands c l next → ∀ origin depth,
    skipFrom origin depth c = if depth = 0 then .ok next else skipFrom origin depth next
  | .atom (l := lex) h hv, origin, depth => by
    rw [h.skips]
    cases lex <;> first | rfl | cases hv
  | .properties h hi hc hv, origin, depth => by
    rw [h.skips]
    exact (hi.skips origin depth).trans (hc.skips_closer origin depth)
  | .boolVector h hi hv, origin, depth => by
    rw [h.skips]
    exact hi.skips origin depth
  | .sugar h hi, origin, depth => by
    rw [h.skips]
    exact hi.skips origin depth
  | .list h hi hc, origin, depth => by
    rw [h.skips]
    exact (hi.skips origin depth).trans (hc.skips_closer origin depth)
  | .dotted h hi hne hd hgap ht hcons hc, origin, depth => by
    rw [h.skips]
    refine (hi.skips origin depth).trans ?_
    rw [hd.skips]
    refine (ht.skips origin (depth + 1)).trans ?_
    exact hc.skips_closer origin depth
  | .vector h ho hi hc, origin, depth => by
    rw [h.skips]
    exact (hi.skips origin depth).trans (hc.skips_closer origin depth)

/-- Inside of brackets, whole data are passed at one level. -/
theorem AllStand.skips {c last : Cursor} {items : List Located} : AllStand c items last →
    ∀ origin depth, skipFrom origin (depth + 1) c = skipFrom origin (depth + 1) last
  | .nil, _, _ => rfl
  | .cons h hs, origin, depth => (h.skips origin (depth + 1)).trans (hs.skips origin depth)

end

end Skipping

end PatternLint.Reader
