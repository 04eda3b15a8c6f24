import PatternLint.Proofs.Endings
import PatternLint.Proofs.Lexing
import PatternLint.Proofs.Numerals

/-! How taking tokens from a text can fail. A fault names a place of the text, or comes from a
numeral of the text that is refused. -/

namespace PatternLint.Reader

variable {text : List Char} {c next origin : Cursor} {n : Nat} {tolerant : Bool}

/-- A place of the text, its end included. -/
structure On (text : List Char) (c : Cursor) : Prop where
  inside : c.pos ≤ text.length
  rest : c.rest = text.drop c.pos

namespace On

/-- The start of a text is a place of it. -/
theorem start (text : List Char) : On text (Cursor.start text) :=
  ⟨Nat.zero_le _, rfl⟩

/-- A place of a text is determined by its offset. -/
theorem eq_of (h : On text c) : Cursor.of text c.pos = c := by
  rw [Cursor.of, ← h.rest]

/-- What is left behind a place. -/
theorem length_rest (h : On text c) : c.rest.length = text.length - c.pos := by
  rw [h.rest, List.length_drop]

theorem drop (h : On text c) (hn : n ≤ c.rest.length) : On text (c.drop n) := by
  have := h.length_rest
  have := h.inside
  refine ⟨by simp only [Cursor.drop]; omega, ?_⟩
  simp only [Cursor.drop, h.rest, List.drop_drop]

theorem skip (h : On text c) (n : Nat) : On text (c.skip n) :=
  h.drop (List.length_take_le' n _)

/-- Behind a mark that the text has at this place. -/
theorem dropText (h : On text c) {mark : String} (hm : c.startsWith mark) :
    On text (c.drop mark.length) :=
  h.drop (String.length_toList (s := mark) ▸ (List.isPrefixOf_iff_prefix.1 hm).length_le)

theorem dropWhile (h : On text c) (p : Char → Bool) :
    On text (c.drop (c.rest.takeWhile p).length) :=
  h.drop (List.takeWhile_prefix p).length_le

end On

/-- The numerals that reading converts, with their bases: the count of a skip mark, a code in
braces, the digits of a label or of a base, and an integer. -/
inductive NumeralAt (text : List Char) : Nat → List Char → Prop
  | skipMark {k : Nat} {tail : List Char} (h : text.drop k = '#' :: '@' :: tail) :
    NumeralAt text 10 (tail.takeWhile Text.isDigit)
  | braced {k : Nat} {digits tail : List Char}
    (h : text.drop k = '\\' :: 'x' :: '\x7b' :: digits ++ '\x7d' :: tail) : NumeralAt text 16 digits
  | hashMark {k : Nat} {digits tail : List Char} {mark : Char}
    (h : text.drop k = '#' :: digits ++ mark :: tail) (hd : ∀ x ∈ digits, Text.isDigitOf 10 x)
    (hm : mark ∈ ['=', '#', 'r', 'R']) : NumeralAt text 10 digits
  | integer {k : Nat} {digits tail : List Char} (h : text.drop k = digits ++ tail)
    (hi : isIntegerText digits) : NumeralAt text 10 (digits.filter (· != '.'))

/-- The text holds a numeral that is refused in this way. -/
def Refuses (text : List Char) (f : Text.Numeral.Fault) : Prop :=
  ∃ base digits, NumeralAt text base digits ∧ Text.Numeral.read base digits = .error f

/-- A fault of reading that the text accounts for. Unknown extensions of the syntax are met only
where they are not tolerated. -/
def Fault.Founded (text : List Char) (tolerant : Bool) : Fault → Prop
  | .malformed pos _ => pos ≤ text.length
  | .unknownExtension pos _ => tolerant = false ∧ pos ≤ text.length
  | .numeral f => Refuses text f

/-- A fault of the tolerant reader is one of either. -/
theorem Fault.Founded.weaken {f : Fault} (h : f.Founded text true) : f.Founded text tolerant := by
  cases f with
  | unknownExtension => cases h.1
  | _ => exact h

theorem On.fail {α : Type} {A : α → Prop} (h : On text c) (problem : Problem) :
    EndsIn A (Fault.Founded text tolerant) (c.fail problem : Except Fault α) :=
  h.inside

/-- White space and comments end at a place of the text; skip marks may refuse their count. -/
theorem skipBlanks_ends (hc : On text c) : EndsIn (On text) (Refuses text) (skipBlanks c) := by
  fun_induction skipBlanks c with
  | case1 => exact hc
  | case2 => exact hc.drop (Nat.le_refl _)
  | case3 c tail hr digits hd f hf => exact ⟨10, digits, .skipMark (hc.rest.symm.trans hr), hf⟩
  | case4 c tail hr digits hd n hn ih => exact ih (hc.skip _)
  | case5 c x tail hr _ hx ih => exact ih (hc.skip _)
  | case6 c x tail hr _ hb hx ih => exact ih (hc.skip _)
  | case7 => exact hc

section Escapes

/-- What stands between two braces, and where the second one is. -/
theorem braced?_eq_some {digits : List Char} (h : braced? c = some (digits, next)) :
    c.rest = digits ++ '\x7d' :: next.rest ∧ next = c.drop (digits.length + 1) := by
  unfold braced? at h
  split at h
  · rename_i n hfind
    obtain ⟨hn, hprefix⟩ := Text.find?_some hfind
    cases h
    have hlength : (c.rest.take n).length = n := by simp [hn]
    obtain ⟨tail, htail⟩ := List.isPrefixOf_iff_prefix.1 hprefix
    have htail' : c.rest.drop (n + 1) = tail := by
      rw [← List.drop_drop, ← htail]
      rfl
    refine ⟨?_, by rw [hlength]⟩
    calc c.rest = c.rest.take n ++ c.rest.drop n := (List.take_append_drop n c.rest).symm
      _ = c.rest.take n ++ '\x7d' :: (c.drop (n + 1)).rest := by
        rw [← htail, Cursor.drop, htail']
        rfl
  · cases h

theorem On.braced {digits : List Char} (hc : On text c) (h : braced? c = some (digits, next)) :
    On text next := by
  obtain ⟨hrest, rfl⟩ := braced?_eq_some h
  exact hc.drop (by simp [hrest])

/-- Hexadecimal digits alone always have a value. -/
theorem readNumeral_hexDigits {digits : List Char} (hne : digits ≠ [])
    (h : ∀ x ∈ digits, isHexDigit x) :
    readNumeral 16 digits =
      .ok (Text.Numeral.ofDigits 16 (digits.map Text.Numeral.digitValue)) := by
  rw [readNumeral, Text.Numeral.read_of_digits (by decide) (by decide) hne h (.inl rfl)]
  rfl

/-- The digits of a code may be refused where braces hold anything else. -/
theorem hexEscape_ends (ho : On text origin) (hr : origin.rest = '\\' :: 'x' :: c.rest)
    (hc : On text c) :
    EndsIn (fun r => On text r.2) (Fault.Founded text true) (hexEscape origin c) := by
  unfold hexEscape
  split
  · exact ho.fail _
  · exact ho.fail _
  · rename_i digits next hne hdigits
    unfold hexDigits? at hdigits
    split at hdigits
    · rename_i hbrace
      obtain ⟨tail, htail⟩ := List.isPrefixOf_iff_prefix.1 hbrace
      have hnext : On text next := (hc.dropText hbrace).braced hdigits
      have hbraced : tail = digits ++ '\x7d' :: next.rest := by
        rw [← (braced?_eq_some hdigits).1, Cursor.drop, ← htail]
        rfl
      rw [readNumeral]
      cases hread : Text.Numeral.read 16 digits with
      | ok n => exact hnext
      | error f =>
        have hplace : text.drop origin.pos =
            '\\' :: 'x' :: '\x7b' :: digits ++ '\x7d' :: next.rest := by
          rw [← ho.rest, hr, ← htail, hbraced]
          rfl
        exact ⟨16, digits, .braced hplace, hread⟩
    · cases hdigits
      rw [readNumeral_hexDigits (fun h => hne h) fun x hx =>
        List.all_eq_true.1 List.all_takeWhile x hx]
      exact hc.dropWhile _

/-- A code of fixed width is made of digits, or the text is malformed. -/
theorem unicodeEscape_ends (ho : On text origin) (hc : On text c) {width : Nat} (hw : 0 < width) :
    EndsIn (fun r => On text r.2) (Fault.Founded text true) (unicodeEscape origin c width) := by
  unfold unicodeEscape
  split
  · rename_i h
    have hne : c.rest.take width ≠ [] := by
      rw [← List.length_pos_iff, h.1]
      exact hw
    rw [readNumeral_hexDigits hne (List.all_eq_true.1 h.2)]
    exact hc.drop (by rw [← h.1]; exact List.length_take_le' _ _)
  · exact ho.fail _

theorem nameEscape_ends (ho : On text origin) (hc : On text c) :
    EndsIn (fun r => On text r.2) (Fault.Founded text true) (nameEscape origin c) := by
  unfold nameEscape
  split
  · exact ho.fail _
  · rename_i name next hname
    split
    · exact hc.braced hname
    · exact ho.fail _

/-- Which kind of escape it is depends on the key behind the backslash. -/
theorem codeEscape_ends {key : Char} (ho : On text origin)
    (hr : origin.rest = '\\' :: key :: c.rest) (hc : On text c) :
    EndsIn (fun r => On text r.2) (Fault.Founded text true) (codeEscape origin key c) := by
  unfold codeEscape
  split
  · exact hc
  split
  · exact hc
  split
  · rename_i hx
    obtain rfl := beq_iff_eq.1 hx
    exact hexEscape_ends ho hr hc
  split
  · refine hc.drop ?_
    exact Nat.le_trans (List.takeWhile_prefix _).length_le (List.length_take_le' _ _)
  split
  · exact unicodeEscape_ends ho hc (by decide)
  split
  · exact unicodeEscape_ends ho hc (by decide)
  split
  · rename_i hname
    exact nameEscape_ends ho (hc.dropText (Bool.and_eq_true_iff.1 hname).2)
  · exact hc

theorem modifier?_on {inString : Bool} {key : Char} {f : Int → Int} (hc : On text c)
    (h : modifier? inString key c = some (f, next)) : On text next := by
  unfold modifier? at h
  split at h <;> split at h <;> cases h
  · exact hc.dropText ‹_›
  · exact hc

/-- A character ends at a place of the text; the induction is on what is left behind modifiers. -/
theorem character_ends (inString : Bool) (hc : On text c) :
    EndsIn (fun r => On text r.2) (Fault.Founded text true) (character inString c) := by
  fun_induction character inString c with
  | case1 => exact hc.fail _
  | case2 => exact hc.fail _
  | case3 c key tail hr => exact hc.drop (by simp [hr])
  | case4 c key tail hr => exact hc.drop (by simp [hr])
  | case5 c key tail hr _ _ f body hm fault hbody ih =>
    exact (ih (modifier?_on (hc.drop (by simp [hr])) hm)).of_error hbody
  | case6 => exact hc.fail _
  | case7 c key tail hr _ _ f body hm code next hbody ih =>
    have hnext := (ih (modifier?_on (hc.drop (by simp [hr])) hm)).of_ok hbody
    exact hnext
  | case8 c key tail hr _ _ hm f hf =>
    exact (codeEscape_ends hc (by simp [hr, Cursor.drop]) (hc.drop (by simp [hr]))).of_error hf
  | case9 c key tail hr _ _ hm code next hcode =>
    exact (codeEscape_ends hc (by simp [hr, Cursor.drop]) (hc.drop (by simp [hr]))).of_ok hcode
  | case10 c x tail _ _ hr => exact hc.drop (by simp [hr])

end Escapes

section Tokens

/-- An atom without escapes is written in the text. -/
def Lexeme.Occurs (text : List Char) : Lexeme → Prop
  | .atom name false => ∃ k tail, text.drop k = name.toList ++ tail
  | _ => True

/-- A token of the text and the place behind it. A `#` at the end of the text is a symbol without a
name, behind which there is no place of the text. -/
def Taken (text : List Char) (r : Lexeme × Cursor) : Prop :=
  r.1.Occurs text ∧ (On text r.2 ∨ r.1 = .atom "" true ∧ r.2.rest = [])

theorem scanAtom_ends {out cs : List Char} {escaped : Bool} {pos : Nat} (hc : On text ⟨pos, cs⟩) :
    EndsIn (fun r => On text r.2.2) (Fault.Founded text true) (scanAtom out escaped pos cs) := by
  fun_induction scanAtom out escaped pos cs with
  | case1 => exact hc
  | case2 => exact hc.inside
  | case3 out _ pos c rest ih => exact ih (hc.drop (n := 2) (by simp))
  | case4 => exact hc
  | case5 out _ pos c rest _ _ _ ih => exact ih (hc.drop (n := 1) (by simp))

/-- A string that is not closed is reported at its start. -/
theorem scanString_ends {out : List Char} (ho : On text origin) (hc : On text c) :
    EndsIn (fun r => On text r.2) (Fault.Founded text true) (scanString origin out c) := by
  fun_induction scanString origin out c with
  | case1 => exact ho.fail _
  | case2 out c tail hr => exact hc.drop (by simp [hr])
  | case3 out c tail hr f hf => exact (character_ends true hc).of_error hf
  | case4 out c tail hr next hn ih => exact ih ((character_ends true hc).of_ok hn)
  | case5 out c tail hr code next hn ih => exact ih ((character_ends true hc).of_ok hn)
  | case6 out c x tail _ _ hr ih => exact ih (hc.drop (by simp [hr]))

/-- A run of digits after `#`, and a mark behind it. -/
theorem hashDigits_on {digits more : List Char} {mark : Char} (hc : On text c)
    (hx : c.rest.head? = some '#')
    (hd : (c.rest.drop 1).takeWhile (Text.isDigitOf 10) = digits)
    (hmark : (c.drop (1 + digits.length)).rest = mark :: more) (hm : mark ∈ ['=', '#', 'r', 'R']) :
    On text ((c.drop (1 + digits.length)).drop 1) ∧ NumeralAt text 10 digits := by
  obtain ⟨tail, hr⟩ : ∃ tail, c.rest = '#' :: tail := List.head?_eq_some_iff.1 hx
  rw [hr, List.drop_succ_cons, List.drop_zero] at hd
  have hdigits : ∀ x ∈ digits, Text.isDigitOf 10 x :=
    fun x hx => List.all_eq_true.1 List.all_takeWhile x (hd ▸ hx)
  have htail : tail = digits ++ mark :: more := by
    obtain ⟨rest, hrest⟩ := List.takeWhile_prefix (Text.isDigitOf 10) (l := tail)
    rw [hd] at hrest
    have hafter : (c.drop (1 + digits.length)).rest = rest := by
      rw [← Cursor.drop_drop]
      simp [Cursor.drop, hr, ← hrest]
    rw [← hrest, ← hafter, hmark]
  refine ⟨?_, .hashMark (k := c.pos) (by rw [← hc.rest, hr, htail]; rfl) hdigits hm⟩
  rw [Cursor.drop_drop]
  refine hc.drop ?_
  simp [hr, htail]
  omega

/-- The digits of a label stand in the text. -/
theorem labelMark?_on {digits : List Char} {mark : Char} (hc : On text c)
    (hx : c.rest.head? = some '#') (h : labelMark? c = some (digits, mark, next)) :
    On text next ∧ NumeralAt text 10 digits := by
  simp only [labelMark?] at h
  split at h
  · rename_i hmark
    split at h
    · rename_i hm
      cases h
      exact hashDigits_on hc hx rfl hmark (by rcases hm.2 with rfl | rfl <;> simp)
    · cases h
  · cases h

theorem radixMark?_on {mark : Nat ⊕ List Char} (hc : On text c) (hx : c.rest.head? = some '#')
    (h : radixMark? c = some (mark, next)) :
    On text next ∧ ∀ digits, mark = .inr digits → NumeralAt text 10 digits := by
  simp only [radixMark?] at h
  split at h
  · cases h
  rename_i letter rest hd
  have hl : 2 ≤ c.rest.length := by
    have := congrArg List.length hd
    simp at this
    omega
  split at h
  · cases h
    exact ⟨hc.drop hl, nofun⟩
  split at h
  · rename_i hmark
    split at h
    · rename_i hm
      cases h
      obtain ⟨hnext, hnumeral⟩ := hashDigits_on hc hx rfl hmark
        (by rcases hm.2 with rfl | rfl <;> simp)
      refine ⟨hnext, ?_⟩
      rintro _ ⟨⟩
      exact hnumeral
    · cases h
  · cases h

/-- A number in a radix has a sign, digits and letters. -/
theorem radixDigits?_on {digits : List Char} (hc : On text c)
    (h : radixDigits? c = some (digits, next)) : On text next := by
  simp only [radixDigits?] at h
  split at h
  · cases h
  · cases h
    refine hc.drop ?_
    have hsign : ((c.rest.take 1).filter fun x => x == '+' || x == '-').length ≤ c.rest.length :=
      Nat.le_trans (List.length_filter_le _ _) (List.length_take_le' _ _)
    have hdigits := (List.takeWhile_prefix isAlphanumericAscii (l := c.rest.drop
      ((c.rest.take 1).filter fun x => x == '+' || x == '-').length)).length_le
    rw [List.length_drop] at hdigits
    omega

/-- The radix and the number may each be refused, for digits that stand in the text. -/
theorem radixNumber?_ends {r : Except Fault (Lexeme × Cursor)} (hc : On text c)
    (hx : c.rest.head? = some '#') (h : radixNumber? c = some r) :
    EndsIn (Taken text) (Fault.Founded text tolerant) r := by
  simp only [radixNumber?] at h
  split at h
  · cases h
  rename_i mark body hmark
  obtain ⟨hbody, hnumeral⟩ := radixMark?_on hc hx hmark
  split at h
  · cases h
  rename_i digits next hdigits
  have hnext := radixDigits?_on hbody hdigits
  cases h
  split
  · rename_i f hradix
    split at hradix
    · cases hradix
    · rename_i digits
      rw [readNumeral] at hradix
      cases hread : Text.Numeral.read 10 digits with
      | ok n =>
        rw [hread] at hradix
        cases hradix
      | error g =>
        rw [hread] at hradix
        cases hradix
        exact ⟨10, digits, hnumeral _ rfl, hread⟩
  · split
    · exact ⟨trivial, .inl hnext⟩
    · exact hc.fail _

theorem bareSymbol_ends (hc : On text c) :
    EndsIn (Taken text) (Fault.Founded text tolerant) (bareSymbol c) := by
  unfold bareSymbol
  rcases Nat.lt_or_ge c.rest.length 2 with hl | hl
  · have hrest : (c.drop 2).rest = [] := List.drop_eq_nil_of_le (by omega)
    rw [atomAt, hrest]
    exact ⟨trivial, .inr ⟨rfl, rfl⟩⟩
  · have hscan : EndsIn (fun r => On text r.2.2) (Fault.Founded text true) (atomAt (c.drop 2)) :=
      scanAtom_ends (hc.drop hl)
    split
    · rename_i f hf
      exact (hscan.of_error hf).weaken
    · rename_i name escaped next hn
      exact ⟨trivial, .inl (hscan.of_ok hn)⟩

theorem labelLexeme_ends {digits : List Char} (hnext : On text next)
    (hdigits : NumeralAt text 10 digits) (mark : Char) :
    EndsIn (Taken text) (Fault.Founded text tolerant) (labelLexeme digits mark next) := by
  unfold labelLexeme
  rw [readNumeral]
  cases hread : Text.Numeral.read 10 digits with
  | ok n =>
    refine ⟨?_, .inl hnext⟩
    dsimp only
    split <;> trivial
  | error f => exact ⟨10, digits, hdigits, hread⟩

/-- An unknown mark behind a `#` is a fault, unless it is tolerated. -/
theorem hashLexeme_ends (hc : On text c) (hx : c.rest.head? = some '#') :
    EndsIn (Taken text) (Fault.Founded text tolerant) (hashLexeme tolerant c) := by
  have hone : 1 ≤ c.rest.length := by
    obtain ⟨tail, hr⟩ := List.head?_eq_some_iff.1 hx
    simp [hr]
  unfold hashLexeme
  split
  · rename_i r hfix
    obtain ⟨m, hm, rfl⟩ := Option.map_eq_some_iff.1 hfix
    refine ⟨?_, .inl (hc.dropText (by simpa using List.find?_some hm))⟩
    have all : ∀ m ∈ fixedMarks, m.2.Occurs text := by simp [fixedMarks, Lexeme.Occurs]
    exact all m (List.mem_of_find?_eq_some hm)
  dsimp only
  split
  · exact bareSymbol_ends hc
  split
  · rename_i hamp
    have hdigits := (List.takeWhile_prefix Text.isDigit (l := c.rest.drop 2)).length_le
    have htwo : 2 ≤ c.rest.length := by
      obtain ⟨tail, htail⟩ := List.head?_eq_some_iff.1 hamp
      have := congrArg List.length htail
      simp at this
      omega
    refine ⟨trivial, .inl (hc.drop ?_)⟩
    rw [List.length_drop] at hdigits
    omega
  split
  · rename_i digits mark next hmark
    obtain ⟨hnext, hnumeral⟩ := labelMark?_on hc hx hmark
    exact labelLexeme_ends hnext hnumeral mark
  split
  · rename_i r hradix
    exact radixNumber?_ends hc hx hradix
  split
  · exact ⟨trivial, .inl (hc.drop hone)⟩
  · exact ⟨by simp_all, hc.inside⟩

theorem singleLexeme?_occurs {x : Char} {l : Lexeme} (h : singleLexeme? x = some l) :
    l.Occurs text := by
  unfold singleLexeme? at h
  repeat' split at h
  all_goals cases h
  all_goals trivial

/-- Atoms are taken as they are; their value is found later. -/
theorem atomLexeme_ends (hc : On text c) :
    EndsIn (Taken text) (Fault.Founded text tolerant) (atomLexeme c) := by
  have hscan : EndsIn (fun r => On text r.2.2) (Fault.Founded text true) (atomAt c) :=
    scanAtom_ends hc
  unfold atomLexeme
  split
  · rename_i f hf
    exact (hscan.of_error hf).weaken
  · rename_i name escaped next hn
    refine ⟨?_, .inl (hscan.of_ok hn)⟩
    dsimp only
    split
    · trivial
    · cases escaped with
      | true => trivial
      | false =>
        obtain ⟨taken, hrest, -, rfl⟩ := scanAtom_text hn
        exact ⟨c.pos, next.rest, by simpa [← hc.rest] using hrest⟩

/-- Every token is taken from the text, and its faults are founded in it. -/
theorem lexeme_ends {x : Char} {tail : List Char} (hc : On text c) (hr : c.rest = x :: tail) :
    EndsIn (Taken text) (Fault.Founded text tolerant) (lexeme tolerant c x) := by
  have hone : On text (c.drop 1) := hc.drop (by simp [hr])
  unfold lexeme
  split
  · rename_i l hl
    exact ⟨singleLexeme?_occurs hl, .inl hone⟩
  split
  · unfold commaLexeme
    split
    · rename_i hmark
      exact ⟨trivial, .inl (hc.dropText hmark)⟩
    · exact ⟨trivial, .inl hone⟩
  split
  · have hscan : EndsIn (fun r => On text r.2) (Fault.Founded text true) (stringAt c) :=
      scanString_ends hc hone
    unfold stringLexeme
    split
    · rename_i f hf
      exact (hscan.of_error hf).weaken
    · rename_i value next hn
      exact ⟨trivial, .inl (hscan.of_ok hn)⟩
  split
  · unfold charLexeme
    split
    · exact hc.fail _
    · have hchar := character_ends false hone
      split
      · rename_i f hf
        exact (hchar.of_error hf).weaken
      · rename_i code next hn
        exact ⟨trivial, .inl (hchar.of_ok hn)⟩
  split
  · rename_i hhash
    obtain rfl := beq_iff_eq.1 hhash
    exact hashLexeme_ends hc (by rw [hr]; rfl)
  · exact atomLexeme_ends hc

/-- What taking a token gives: a place in the text it begins at, and the token. -/
def Token.Of (text : List Char) (r : Token × Cursor) : Prop :=
  r.1.start ≤ text.length ∧ Taken text (r.1.lexeme, r.2)

/-- What comes next is a token of the text, nothing, or a founded fault. -/
theorem token?_ends (hc : On text c) :
    EndsIn (fun r => ∀ t, r = some t → Token.Of text t) (Fault.Founded text tolerant)
      (token? tolerant c) := by
  have hblanks := skipBlanks_ends hc
  unfold token?
  split
  · rename_i f hf
    exact hblanks.of_error hf
  · rename_i here hhere
    have hhere := hblanks.of_ok hhere
    split
    · exact nofun
    · rename_i x tail hr
      split
      · rename_i f hf
        exact (lexeme_ends hhere hr).of_error hf
      · rename_i l next hl
        rintro _ ⟨⟩
        exact ⟨hhere.inside, (lexeme_ends hhere hr).of_ok hl⟩

end Tokens

end PatternLint.Reader
