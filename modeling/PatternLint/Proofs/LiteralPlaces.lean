import PatternLint.Proofs.LexingFaults

/-! Characters of a string literal are found again in the text. Scanning a literal and
looking for one of its characters take the same pieces of the text, and what a piece
stands for is counted alike. -/

namespace PatternLint.Reader

variable {text cs cs' : List Char} {c d mid next origin : Cursor} {code? : Option Int}
  {code index : Int}
  {start pos : Nat}

/-- A source character or an escape sequence inside a literal, and the code
it stands for, if any. -/
structure Piece (c : Cursor) (code? : Option Int) (next : Cursor) : Prop where
  inside : c.rest.head? ≠ some '"'
  read : character true c = .ok (code?, next)

/-- The pieces of a literal from one place to another, and the characters they stand for. -/
inductive Spells : Cursor → List Char → Cursor → Prop
  | nil {c : Cursor} : Spells c [] c
  | blank {c mid d : Cursor} {cs : List Char} (h : Piece c none mid) (hs : Spells mid cs d) :
    Spells c cs d
  | char {c mid d : Cursor} {code : Int} {cs : List Char} (h : Piece c (some code) mid)
    (hs : Spells mid cs d) : Spells c (charOfCode code :: cs) d

theorem character_plain {x : Char} {tail : List Char} (hr : c.rest = x :: tail) (hx : x ≠ '\\') :
    character true c = .ok (some x.toNat, c.drop 1) := by
  have hne : '\\' ≠ x := Ne.symm hx
  rw [character]
  split <;> simp_all

/-! Pieces -/

theorem Piece.on (h : Piece c code? next) (hc : On text c) : On text next :=
  (character_ends true hc).of_ok h.read

theorem Piece.shorter (h : Piece c code? next) : next.rest.length < c.rest.length :=
  character_shorter h.read

theorem Piece.advances (h : Piece c code? next) (hc : On text c) : c.pos < next.pos := by
  have hnext := h.on hc
  have := h.shorter
  have := hc.length_rest
  have := hnext.length_rest
  have := hnext.inside
  omega

theorem charPlace_quote (h : c.rest.head? = some '"') : charPlace start index c = .ok c.pos := by
  obtain ⟨tail, hr⟩ := List.head?_eq_some_iff.1 h
  rw [charPlace]
  split <;> simp_all

theorem Piece.cases_head (h : Piece c code? next) :
    (∃ tail, c.rest = '\\' :: tail) ∨ ∃ x tail, c.rest = x :: tail ∧ x ≠ '\\' ∧ x ≠ '"' ∧
      code? = some (x.toNat : Int) ∧ next = c.drop 1 := by
  obtain ⟨hquote, hread⟩ := h
  rcases hr : c.rest with _ | ⟨x, tail⟩
  · rw [character] at hread
    split at hread <;> simp_all [Cursor.fail]
  · by_cases hx : x = '\\'
    · exact .inl ⟨tail, by rw [hx]⟩
    · rw [character_plain hr hx] at hread
      cases hread
      exact .inr ⟨x, tail, rfl, hx, fun hq => hquote (by rw [hr, hq]; rfl), rfl, rfl⟩

/-- Pieces that stand for nothing are not counted. -/
theorem Piece.charPlace_blank (h : Piece c none next) :
    charPlace start index c = charPlace start index next := by
  rcases h.cases_head with ⟨tail, hr⟩ | ⟨x, tail, -, -, -, hcode, -⟩
  · have hread := h.read
    rw [charPlace]
    split <;> simp_all
    split <;> simp_all
  · cases hcode

theorem Piece.charPlace_char (h : Piece c (some code) next) : charPlace start index c =
    if index = 0 then .ok c.pos else charPlace start (index - 1) next := by
  rcases h.cases_head with ⟨tail, hr⟩ | ⟨x, tail, hr, hback, hquote, -, rfl⟩
  · have hread := h.read
    rw [charPlace]
    split <;> simp_all
    split <;> simp_all
  · have hback' : '\\' ≠ x := Ne.symm hback
    have hquote' : '"' ≠ x := Ne.symm hquote
    rw [charPlace]
    split <;> simp_all

/-! Literals -/

namespace Spells

theorem on (h : Spells c cs d) (hc : On text c) : On text d := by
  induction h with
  | nil => exact hc
  | blank h _ ih => exact ih (h.on hc)
  | char h _ ih => exact ih (h.on hc)

theorem pos_le (h : Spells c cs d) (hc : On text c) : c.pos ≤ d.pos := by
  induction h with
  | nil => exact Nat.le_refl _
  | blank h _ ih => exact Nat.le_trans (Nat.le_of_lt (h.advances hc)) (ih (h.on hc))
  | char h _ ih => exact Nat.le_trans (Nat.le_of_lt (h.advances hc)) (ih (h.on hc))

/-- The search for a character passes over all that come before it. -/
theorem charPlace (h : Spells c cs d) (n : Nat) :
    Reader.charPlace start ((cs.length + n : Nat) : Int) c = Reader.charPlace start n d := by
  induction h with
  | nil => rw [List.length_nil, Nat.zero_add]
  | blank h _ ih => rw [h.charPlace_blank, ih]
  | char h _ ih =>
    rw [h.charPlace_char, if_neg (by simp; omega), ← ih]
    congr 1
    simp
    omega

/-- Each character has a piece of its own, before which the pieces stand for what is before it. -/
theorem split (h : Spells c cs d) {i : Nat} (hi : i < cs.length) :
    ∃ here code after, Spells c (cs.take i) here ∧ Piece here (some code) after ∧
      charOfCode code = cs[i] ∧ Spells after (cs.drop (i + 1)) d := by
  induction h generalizing i with
  | nil => cases hi
  | blank h _ ih =>
    obtain ⟨here, code, after, hbefore, hpiece, hcode, hbehind⟩ := ih hi
    exact ⟨here, code, after, .blank h hbefore, hpiece, hcode, hbehind⟩
  | @char c mid d code cs h hs ih =>
    cases i with
    | zero => exact ⟨c, code, mid, .nil, h, rfl, hs⟩
    | succ i =>
      obtain ⟨here, code', after, hbefore, hpiece, hcode, hbehind⟩ := ih (Nat.lt_of_succ_lt_succ hi)
      exact ⟨here, code', after, .char h hbefore, hpiece, hcode, hbehind⟩

end Spells

/-- A character of what is spelled from `c` on comes from this place: the pieces before it stand for
the characters before, and the piece there for the character itself. -/
def ComesFrom (c : Cursor) (cs : List Char) (index : Nat) (here : Cursor) : Prop :=
  ∃ code after, Spells c (cs.take index) here ∧ Piece here (some code) after ∧
    cs[index]? = some (charOfCode code)

namespace ComesFrom

variable {i j : Nat} {here there : Cursor}

theorem of_spells (h : Spells c cs d) (hi : i < cs.length) : ∃ here, ComesFrom c cs i here := by
  obtain ⟨here, code, after, hbefore, hpiece, hcode, -⟩ := h.split hi
  exact ⟨here, code, after, hbefore, hpiece, by rw [hcode, List.getElem?_eq_getElem hi]⟩

theorem on (h : ComesFrom c cs i here) (hc : On text c) : On text here := by
  obtain ⟨code, after, hbefore, -, -⟩ := h
  exact hbefore.on hc

theorem pos_le (h : ComesFrom c cs i here) (hc : On text c) : c.pos ≤ here.pos := by
  obtain ⟨code, after, hbefore, -, -⟩ := h
  exact hbefore.pos_le hc

theorem lt_length (h : ComesFrom c cs i here) : i < cs.length := by
  obtain ⟨code, after, -, -, hget⟩ := h
  exact (List.getElem?_eq_some_iff.1 hget).1

/-- That place is found. -/
theorem charPlace (h : ComesFrom c cs i here) : Reader.charPlace start i c = .ok here.pos := by
  have hi := h.lt_length
  obtain ⟨code, after, hbefore, hpiece, -⟩ := h
  have hlength : (cs.take i).length = i := by simp; omega
  have hfound : Reader.charPlace start (((cs.take i).length + 0 : Nat) : Int) c =
      Reader.charPlace start (0 : Nat) here := hbefore.charPlace 0
  rw [hlength, Nat.add_zero] at hfound
  rw [hfound, hpiece.charPlace_char]
  rfl

theorem unique (h : ComesFrom c cs i here) (h' : ComesFrom c cs i there) :
    here.pos = there.pos := by
  have hhere : Reader.charPlace 0 i c = .ok here.pos := h.charPlace
  have hthere : Reader.charPlace 0 i c = .ok there.pos := h'.charPlace
  exact Except.ok.inj (hhere.symm.trans hthere)

theorem lt_of_spells (h : ComesFrom c cs i here) (hs : Spells c (cs.take j) d) (hij : i < j)
    (hc : On text c) : here.pos < d.pos := by
  have hi : i < (cs.take j).length := by
    have := h.lt_length
    simp
    omega
  obtain ⟨there, code, after, hbefore, hpiece, hcode, hbehind⟩ := hs.split hi
  have htake : (cs.take j).take i = cs.take i := by
    rw [List.take_take, Nat.min_eq_left (Nat.le_of_lt hij)]
  have hthere : ComesFrom c cs i there := by
    refine ⟨code, after, htake ▸ hbefore, hpiece, ?_⟩
    rw [hcode, List.getElem_take, List.getElem?_eq_getElem h.lt_length]
  have hon : On text there := hbefore.on hc
  rw [h.unique hthere]
  exact Nat.lt_of_lt_of_le (hpiece.advances hon) (hbehind.pos_le (hpiece.on hon))

/-- Later characters come from later places. -/
theorem strictMono (h : ComesFrom c cs i here) (h' : ComesFrom c cs j there) (hij : i < j)
    (hc : On text c) : here.pos < there.pos := by
  obtain ⟨code, after, hbefore, -, -⟩ := h'
  exact h.lt_of_spells hbefore hij hc

end ComesFrom

/-- What is scanned up to the closing quote is spelled by the text. -/
theorem scanString_spells {out : List Char} {value : String}
    (h : scanString origin out c = .ok (value, next)) :
    ∃ cs close, Spells c cs close ∧ close.rest.head? = some '"' ∧ next = close.drop 1 ∧
      value = String.ofList (out.reverse ++ cs) := by
  fun_induction scanString origin out c with
  | case1 => cases h
  | case2 out c tail hr =>
    cases h
    exact ⟨[], c, .nil, by rw [hr]; rfl, rfl, by rw [List.append_nil]⟩
  | case3 => cases h
  | case4 out c tail hr next' hread ih =>
    obtain ⟨cs, close, hs, hclose, hnext, rfl⟩ := ih h
    exact ⟨cs, close, .blank ⟨by simp [hr], hread⟩ hs, hclose, hnext, rfl⟩
  | case5 out c tail hr code next' hread ih =>
    obtain ⟨cs, close, hs, hclose, hnext, rfl⟩ := ih h
    exact ⟨_, close, .char ⟨by simp [hr], hread⟩ hs, hclose, hnext, by simp⟩
  | case6 out c x tail hquote hback hr ih =>
    obtain ⟨cs, close, hs, hclose, hnext, rfl⟩ := ih h
    have hpiece : Piece c (some (x.toNat : Int)) (c.drop 1) := by
      refine ⟨?_, character_plain hr ?_⟩
      · rw [hr]
        simpa using hquote
      · simpa using hback
    exact ⟨_, close, .char hpiece hs, hclose, hnext, by simp [charOfCode_toNat]⟩

/-- A literal of the text: from the quote that opens it up to the quote that closes it, its
pieces spell its value. -/
theorem stringAt_spells {value : String} (hquote : text[pos]? = some '"')
    (h : stringAt (Cursor.of text pos) = .ok (value, next)) :
    ∃ close, On text (Cursor.of text (pos + 1)) ∧ On text close ∧ next = close.drop 1 ∧
      Spells (Cursor.of text (pos + 1)) value.toList close ∧ close.rest.head? = some '"' := by
  have hpos : pos < text.length := (List.getElem?_eq_some_iff.1 hquote).1
  have hinside : (Cursor.of text pos).drop 1 = Cursor.of text (pos + 1) := by
    simp [Cursor.of, Cursor.drop]
  have hon : On text (Cursor.of text (pos + 1)) := ⟨hpos, rfl⟩
  rw [stringAt, hinside] at h
  obtain ⟨cs, close, hs, hclose, hnext, rfl⟩ := scanString_spells h
  refine ⟨close, hon, hs.on hon, hnext, ?_, hclose⟩
  simpa using hs

/-- The place of a character of a literal is where the source character or the escape sequence
starts that stands for it. These places come in the order of the characters, between the quotes; for
an index beyond them it is the closing quote. -/
theorem stringPosition_inverts {value : String} (hquote : text[pos]? = some '"')
    (h : stringAt (Cursor.of text pos) = .ok (value, next)) :
    (∀ i : Nat, i < value.length → ∃ place, stringPosition text pos i = .ok place ∧
      ComesFrom (Cursor.of text (pos + 1)) value.toList i (Cursor.of text place) ∧
        pos < place ∧ place < next.pos - 1) ∧
    (∀ (i j : Nat) (a b : Nat), i < j → j < value.length → stringPosition text pos i = .ok a →
      stringPosition text pos j = .ok b → a < b) ∧
    (∀ i : Nat, value.length ≤ i → stringPosition text pos i = .ok (next.pos - 1)) ∧
      text[next.pos - 1]? = some '"' := by
  obtain ⟨close, hinside, hon, rfl, hspells, hclose⟩ := stringAt_spells hquote h
  have hstring : ∀ i : Int,
      stringPosition text pos i = charPlace pos i (Cursor.of text (pos + 1)) := by
    intro i
    have hstart : (Cursor.of text pos).startsWith "\"" := by
      obtain ⟨hpos, hx⟩ := List.getElem?_eq_some_iff.1 hquote
      simp [Cursor.startsWith, Cursor.of, List.drop_eq_getElem_cons hpos, hx]
    rw [stringPosition, if_pos hstart]
    simp [Cursor.of, Cursor.drop]
  have hlength : value.toList.length = value.length := String.length_toList
  have found : ∀ i : Nat, i < value.length →
      ∃ here, ComesFrom (Cursor.of text (pos + 1)) value.toList i here ∧
        stringPosition text pos i = .ok here.pos := by
    intro i hi
    obtain ⟨here, hfrom⟩ := ComesFrom.of_spells hspells (hlength.symm ▸ hi)
    exact ⟨here, hfrom, by rw [hstring, hfrom.charPlace]⟩
  refine ⟨fun i hi => ?_, fun i j a b hij hj ha hb => ?_, fun i hi => ?_, ?_⟩
  · obtain ⟨here, hfrom, hplace⟩ := found i hi
    have hall : Spells (Cursor.of text (pos + 1)) (value.toList.take value.length) close := by
      rwa [← hlength, List.take_length]
    refine ⟨here.pos, hplace, ?_, hfrom.pos_le hinside, hfrom.lt_of_spells hall hi hinside⟩
    rwa [(hfrom.on hinside).eq_of]
  · obtain ⟨here, hfrom, hplace⟩ := found i (Nat.lt_trans hij hj)
    obtain ⟨there, hfrom', hplace'⟩ := found j hj
    obtain rfl := Except.ok.inj (hplace.symm.trans ha)
    obtain rfl := Except.ok.inj (hplace'.symm.trans hb)
    exact hfrom.strictMono hfrom' hij hinside
  · obtain ⟨n, rfl⟩ := Nat.exists_eq_add_of_le hi
    rw [hstring, ← hlength, hspells.charPlace, charPlace_quote hclose]
    rfl
  · obtain ⟨tail, hr⟩ := List.head?_eq_some_iff.1 hclose
    rw [hon.rest] at hr
    have hget : (text.drop close.pos)[0]? = some '"' := by rw [hr]; rfl
    simpa [Cursor.drop] using hget

/-- A control character, an escaped line end, a code, an escaped blank and a letter. -/
def escapedText : List Char :=
  "(\"\\^a\\\n\\x41\\ b\")".toList

theorem stringPosition_inverts_escaped :
    escapedText[1]? = some '"' ∧ ∃ next,
      stringAt (Cursor.of escapedText 1) = .ok ("\x01Ab", next) ∧ next.pos = 15 ∧
      (∃ place, stringPosition escapedText 1 1 = .ok place ∧
        ComesFrom (Cursor.of escapedText 2) "\x01Ab".toList 1 (Cursor.of escapedText place) ∧
          1 < place ∧ place < 14) ∧
      (∀ a b, stringPosition escapedText 1 1 = .ok a → stringPosition escapedText 1 2 = .ok b →
        a < b) ∧
      stringPosition escapedText 1 3 = .ok 14 := by
  have hquote : escapedText[1]? = some '"' := by decide
  have hscan : (stringAt (Cursor.of escapedText 1)).toOption.map (fun r => (r.1, r.2.pos)) =
      some ("\x01Ab", 15) := by
    decide +kernel
  rcases hread : stringAt (Cursor.of escapedText 1) with f | ⟨value, next⟩
  · rw [hread] at hscan
    cases hscan
  · rw [hread] at hscan
    obtain ⟨rfl, hpos⟩ := Prod.mk.inj (Option.some.inj hscan)
    obtain ⟨hplaces, hordered, hbeyond, -⟩ := stringPosition_inverts hquote hread
    rw [show next.pos = 15 from hpos] at hplaces hbeyond
    exact ⟨hquote, next, rfl, hpos, hplaces 1 (by decide),
      fun a b => hordered 1 2 a b (by decide) (by decide), hbeyond 3 (by decide)⟩

end PatternLint.Reader
