import PatternLint.Reader.Position

/-! What a token tells about the text it was taken from. -/

namespace PatternLint.Reader

/-- The second place lies further on in the same text. -/
def Cursor.Leads (c next : Cursor) : Prop :=
  ∃ n, next = c.drop n

namespace Cursor.Leads

variable {c d next : Cursor}

/-- Nothing is read. -/
theorem refl (c : Cursor) : c.Leads c :=
  ⟨0, c.drop_zero.symm⟩

theorem drop (c : Cursor) (n : Nat) : c.Leads (c.drop n) :=
  ⟨n, rfl⟩

/-- Readings follow one another. -/
theorem trans (h : c.Leads d) (h' : d.Leads next) : c.Leads next := by
  obtain ⟨m, rfl⟩ := h
  obtain ⟨n, rfl⟩ := h'
  exact ⟨m + n, c.drop_drop m n⟩

/-- A place that the start of a text leads to is the place at its offset. -/
theorem of_eq {text : List Char} (h : (Cursor.start text).Leads c) : Cursor.of text c.pos = c := by
  obtain ⟨n, rfl⟩ := h
  simp [Cursor.of, Cursor.drop, Cursor.start]

end Cursor.Leads

theorem charOfCode_toNat (x : Char) : charOfCode x.toNat = x := by
  have hvalid : x.toNat.isValidChar := x.valid
  simp [charOfCode, hvalid]

section Along

variable {c next : Cursor} {tolerant inString : Bool}

/-- Where something else stands there is nothing to skip. -/
theorem skipBlanks_of_solid {pos : Nat} {x : Char} {rest : List Char} (hb : Text.isBlank x = false)
    (hs : x ≠ ';') (hh : x ≠ '#') :
    skipBlanks ⟨pos, x :: rest⟩ = .ok ⟨pos, x :: rest⟩ := by
  rw [skipBlanks]
  split
  · rfl
  · rename_i h
    exact (hh (List.cons.inj h).1).elim
  · rename_i h
    obtain ⟨rfl, rfl⟩ := List.cons.inj h
    simp [hb, hs]

theorem skipBlanks_leads (h : skipBlanks c = .ok next) : c.Leads next := by
  fun_induction skipBlanks c with
  | case1 => cases h; exact .refl _
  | case2 => cases h; exact .drop _ _
  | case3 => cases h
  | case4 _ _ _ _ _ _ _ ih => exact .trans (.drop _ _) (ih h)
  | case5 _ _ _ _ _ _ ih => exact .trans (.drop _ _) (ih h)
  | case6 _ _ _ _ _ _ _ ih => exact .trans (.drop _ _) (ih h)
  | case7 => cases h; exact .refl _

/-- Behind white space and comments there are none. -/
theorem skipBlanks_idem (h : skipBlanks c = .ok next) : skipBlanks next = .ok next := by
  fun_induction skipBlanks c with
  | case1 c hc =>
    cases h
    rw [skipBlanks, hc]
  | case2 c =>
    cases h
    have hr : (c.drop c.rest.length).rest = [] := by simp [Cursor.drop]
    rw [skipBlanks, hr]
  | case3 => cases h
  | case4 _ _ _ _ _ _ _ ih => exact ih h
  | case5 _ _ _ _ _ _ ih => exact ih h
  | case6 _ _ _ _ _ _ _ ih => exact ih h
  | case7 c x tail hx hc hb hs =>
    cases h
    rw [skipBlanks]
    split
    · rfl
    · rename_i hc'
      rw [hc] at hc'
      obtain ⟨rfl, rfl⟩ := List.cons.inj hc'
      exact (hx _ rfl rfl).elim
    · rename_i hc'
      rw [hc] at hc'
      cases hc'
      rw [if_neg hb, if_neg hs]

/-- Behind the closing brace. -/
theorem braced?_leads {text : List Char} (h : braced? c = some (text, next)) : c.Leads next := by
  unfold braced? at h
  split at h <;> cases h
  exact .drop _ _

/-- Each kind of escape reads on. -/
theorem codeEscape_leads {origin : Cursor} {key : Char} {code : Int}
    (h : codeEscape origin key c = .ok (code, next)) : c.Leads next := by
  unfold codeEscape at h
  split at h
  · cases h; exact .refl _
  split at h
  · cases h; exact .refl _
  split at h
  · unfold hexEscape at h
    split at h
    · cases h
    · cases h
    · rename_i hd
      rw [← map_pair_ok h]
      unfold hexDigits? at hd
      split at hd
      · exact .trans (.drop _ _) (braced?_leads hd)
      · cases hd; exact .drop _ _
  split at h
  · cases h; exact .drop _ _
  split at h
  · unfold unicodeEscape at h
    split at h
    · rw [← map_pair_ok h]; exact .drop _ _
    · cases h
  split at h
  · unfold unicodeEscape at h
    split at h
    · rw [← map_pair_ok h]; exact .drop _ _
    · cases h
  split at h
  · unfold nameEscape at h
    split at h
    · cases h
    · rename_i hb
      split at h <;> cases h
      exact .trans (.drop _ _) (braced?_leads hb)
  · cases h; exact .refl _

theorem modifier?_leads {key : Char} {f : Int → Int}
    (h : modifier? inString key c = some (f, next)) : c.Leads next := by
  unfold modifier? at h
  split at h <;> split at h <;> cases h
  · exact .drop _ _
  · exact .refl _

/-- A character reads on; modifiers come before the character that they modify. -/
theorem character_leads {code : Option Int} (h : character inString c = .ok (code, next)) :
    c.Leads next := by
  fun_induction character inString c generalizing code next with
  | case1 => cases h
  | case2 => cases h
  | case3 => cases h; exact .drop _ _
  | case4 => cases h; exact .drop _ _
  | case5 => cases h
  | case6 => cases h
  | case7 c key tail hc _ _ f body hm code next hb ih =>
    cases h
    exact .trans (.drop _ _) (.trans (modifier?_leads hm) (ih hb))
  | case8 => cases h
  | case9 c key tail hc _ _ hm code next hb =>
    cases h
    exact .trans (.drop _ _) (codeEscape_leads hb)
  | case10 => cases h; exact .drop _ _

/-- An atom is read character by character, and escapes two at a time. -/
theorem scanAtom_leads {out cs : List Char} {escaped escaped' : Bool} {pos : Nat} {text : String}
    (h : scanAtom out escaped pos cs = .ok (text, escaped', next)) :
    (Cursor.mk pos cs).Leads next := by
  fun_induction scanAtom out escaped pos cs with
  | case1 => cases h; exact .refl _
  | case2 => cases h
  | case3 out _ pos c rest ih => exact .trans (.drop ⟨pos, '\\' :: c :: rest⟩ 2) (ih h)
  | case4 => cases h; exact .refl _
  | case5 out _ pos c rest _ _ _ ih => exact .trans (.drop ⟨pos, c :: rest⟩ 1) (ih h)

theorem scanString_leads {origin : Cursor} {out : List Char} {text : String}
    (h : scanString origin out c = .ok (text, next)) : c.Leads next := by
  fun_induction scanString origin out c with
  | case1 => cases h
  | case2 => cases h; exact .drop _ _
  | case3 => cases h
  | case4 out c tail hc next' hn ih => exact .trans (character_leads hn) (ih h)
  | case5 out c tail hc code next' hn ih => exact .trans (character_leads hn) (ih h)
  | case6 out c x tail _ _ hc ih => exact .trans (.drop _ _) (ih h)

theorem radixNumber?_leads {l : Lexeme} (h : radixNumber? c = some (.ok (l, next))) :
    c.Leads next := by
  simp only [radixNumber?] at h
  split at h
  · cases h
  rename_i mark body hm
  split at h
  · cases h
  rename_i digits after hd
  have hbody : c.Leads body := by
    simp only [radixMark?] at hm
    split at hm
    · cases hm
    split at hm
    · cases hm; exact .drop _ _
    split at hm <;> try split at hm
    all_goals cases hm
    exact .trans (.drop _ _) (.drop _ _)
  have hafter : body.Leads after := by
    simp only [radixDigits?] at hd
    split at hd <;> cases hd
    exact .drop _ _
  split at h
  · cases h
  split at h <;> cases h
  exact hbody.trans hafter

/-- Every extension of the syntax reads on. -/
theorem hashLexeme_leads {l : Lexeme} (h : hashLexeme tolerant c = .ok (l, next)) :
    c.Leads next := by
  unfold hashLexeme at h
  split at h
  · rename_i hm
    cases h
    obtain ⟨m, -, hn⟩ := Option.map_eq_some_iff.1 hm
    cases hn
    exact .drop _ _
  simp only at h
  split at h
  · unfold bareSymbol at h
    split at h <;> cases h
    rename_i ha
    exact .trans (.drop _ _) (scanAtom_leads ha)
  split at h
  · cases h; exact .drop _ _
  split at h
  · rename_i hm
    unfold labelLexeme at h
    split at h <;> cases h
    simp only [labelMark?] at hm
    split at hm <;> try split at hm
    all_goals cases hm
    exact .trans (.drop _ _) (.drop _ _)
  split at h
  · rename_i hr
    exact radixNumber?_leads (h ▸ hr)
  split at h <;> cases h
  exact .drop _ _

theorem lexeme_leads {x : Char} {l : Lexeme} (h : lexeme tolerant c x = .ok (l, next)) :
    c.Leads next := by
  unfold lexeme at h
  split at h
  · cases h; exact .drop _ _
  split at h
  · have := Except.ok.inj h
    unfold commaLexeme at this
    split at this <;> cases this <;> exact .drop _ _
  split at h
  · unfold stringLexeme at h
    split at h <;> cases h
    rename_i hs
    exact .trans (.drop _ _) (scanString_leads hs)
  split at h
  · unfold charLexeme at h
    split at h
    · cases h
    split at h <;> cases h
    rename_i hc
    exact .trans (.drop _ _) (character_leads hc)
  split at h
  · exact hashLexeme_leads h
  · unfold atomLexeme at h
    split at h <;> cases h
    rename_i ha
    exact scanAtom_leads ha

/-- A token reads on, over the blanks before it. -/
theorem token?_leads {tok : Token} (h : token? tolerant c = .ok (some (tok, next))) :
    c.Leads next := by
  simp only [token?] at h
  split at h
  · cases h
  rename_i hs
  split at h
  · cases h
  split at h <;> cases h
  rename_i hl
  exact (skipBlanks_leads hs).trans (lexeme_leads hl)

end Along

section Tokens

variable {c here next : Cursor} {tolerant : Bool} {tok : Token} {l : Lexeme} {x : Char}
  {tail : List Char}

/-- A token is what its first character decides, behind the blanks. -/
theorem token?_eq_some (h : token? tolerant c = .ok (some (tok, next))) :
    ∃ here x tail, skipBlanks c = .ok here ∧ here.rest = x :: tail ∧
      lexeme tolerant here x = .ok (tok.lexeme, next) ∧ tok = ⟨tok.lexeme, here.pos, next.pos⟩ := by
  simp only [token?] at h
  split at h
  · cases h
  rename_i here hs
  split at h
  · cases h
  rename_i x tail hr
  split at h <;> cases h
  rename_i hl
  exact ⟨here, x, tail, hs, hr, hl, rfl⟩

theorem token?_of_lexeme (hs : skipBlanks c = .ok here) (hr : here.rest = x :: tail)
    (hl : lexeme tolerant here x = .ok (l, next)) :
    token? tolerant c = .ok (some (⟨l, here.pos, next.pos⟩, next)) := by
  simp only [token?, hs, hr, hl]

/-- Blanks before a token make no difference to it. -/
theorem token?_of_blanks (hs : skipBlanks c = .ok here) :
    token? tolerant here = token? tolerant c := by
  simp only [token?, hs, skipBlanks_idem hs]

/-- Tolerance matters only for marks that are not known. -/
theorem hashLexeme_tolerant {r : Lexeme × Cursor} :
    hashLexeme false c = .ok r → hashLexeme true c = .ok r := by
  unfold hashLexeme
  cases fixedMark? c with
  | some m => exact id
  | none =>
    dsimp only
    split
    · exact id
    split
    · exact id
    cases labelMark? c with
    | some m => exact id
    | none =>
      cases radixNumber? c with
      | some m => exact id
      | none => exact nofun

theorem lexeme_tolerant {r : Lexeme × Cursor} :
    lexeme false c x = .ok r → lexeme true c x = .ok r := by
  unfold lexeme
  cases singleLexeme? x with
  | some l => exact id
  | none =>
    by_cases hash : x = '#'
    · subst hash
      exact hashLexeme_tolerant
    · simp only [beq_iff_eq, hash, if_false]
      exact id

/-- Whatever is read strictly is read tolerantly, too. -/
theorem token?_tolerant (h : token? false c = .ok (some (tok, next))) :
    token? true c = .ok (some (tok, next)) := by
  obtain ⟨here, x, tail, hs, hr, hl, heq⟩ := token?_eq_some h
  rw [heq]
  exact token?_of_lexeme hs hr (lexeme_tolerant hl)

/-- The text of a token that opens a structure or abbreviates one. -/
def Lexeme.mark? : Lexeme → Option String
  | .opener o => some o.text
  | .sugar s => some s.text
  | _ => none

/-- A token of one character is its own mark. -/
theorem singleLexeme_mark {m : String} (hr : c.rest = x :: tail) (hx : singleLexeme? x = some l)
    (hm : l.mark? = some m) : c.startsWith m ∧ m.length = 1 ∧ l ≠ .sugar .unquote := by
  unfold singleLexeme? at hx
  repeat' split at hx
  all_goals cases hx
  all_goals cases hm
  all_goals
    refine ⟨?_, rfl, nofun⟩
    simp_all [Cursor.startsWith, Opener.text, Sugar.text, apostrophe, graveAccent]

/-- In a radix there are only numbers. -/
theorem radixNumber?_number (h : radixNumber? c = some (.ok (l, next))) : ∃ n, l = .number n := by
  simp only [radixNumber?] at h
  split at h
  · cases h
  split at h
  · cases h
  split at h
  · cases h
  split at h <;> cases h
  exact ⟨_, rfl⟩

/-- What begins with `#` is one of the fixed marks, or has no mark and is no dot. -/
theorem hashLexeme_cases (h : hashLexeme tolerant c = .ok (l, next)) :
    (∃ m ∈ fixedMarks, c.startsWith m.1 ∧ l = m.2 ∧ next = c.drop m.1.length) ∨
      (l.mark? = none ∧ l ≠ .dot) := by
  unfold hashLexeme at h
  split at h
  · rename_i hfix
    cases h
    obtain ⟨m, hm, heq⟩ := Option.map_eq_some_iff.1 hfix
    obtain ⟨rfl, rfl⟩ := Prod.mk.inj heq
    have hstart : c.startsWith m.1 := by simpa using List.find?_some hm
    exact .inl ⟨m, List.mem_of_find?_eq_some hm, hstart, rfl, rfl⟩
  right
  simp only at h
  split at h
  · unfold bareSymbol at h
    split at h <;> cases h
    exact ⟨rfl, nofun⟩
  split at h
  · cases h
    exact ⟨rfl, nofun⟩
  split at h
  · unfold labelLexeme at h
    split at h <;> cases h
    split <;> exact ⟨rfl, nofun⟩
  split at h
  · rename_i hr
    obtain ⟨n, rfl⟩ := radixNumber?_number (h ▸ hr)
    exact ⟨rfl, nofun⟩
  split at h <;> cases h
  exact ⟨rfl, nofun⟩

theorem hashLexeme_mark {m : String} (h : hashLexeme tolerant c = .ok (l, next))
    (hm : l.mark? = some m) :
    c.startsWith m ∧ next = c.drop m.length ∧ l ≠ .sugar .unquote := by
  rcases hashLexeme_cases h with ⟨p, hp, hstart, rfl, rfl⟩ | ⟨hnone, -⟩
  · simp only [fixedMarks, List.mem_cons, List.not_mem_nil, or_false] at hp
    rcases hp with rfl | rfl | rfl | rfl | rfl | rfl | rfl <;> cases hm <;>
      exact ⟨hstart, rfl, nofun⟩
  · rw [hnone] at hm
    cases hm

theorem hashLexeme_ne_dot (h : hashLexeme tolerant c = .ok (l, next)) : l ≠ .dot := by
  rcases hashLexeme_cases h with ⟨p, hp, -, rfl, -⟩ | ⟨-, hne⟩
  · simp only [fixedMarks, List.mem_cons, List.not_mem_nil, or_false] at hp
    rcases hp with rfl | rfl | rfl | rfl | rfl | rfl | rfl <;> exact nofun
  · exact hne

/-- A token with a mark is just the mark, and a comma is not the longer of the marks that begin with
one. A dot comes from an atom. -/
theorem lexeme_mark (hr : c.rest = x :: tail) (h : lexeme tolerant c x = .ok (l, next)) :
    (∀ m, l.mark? = some m → c.startsWith m ∧ next = c.drop m.length ∧
      (l = .sugar .unquote → c.startsWith ",@" = false)) ∧
    (l = .dot → atomLexeme c = .ok (l, next)) := by
  unfold lexeme at h
  split at h
  · rename_i hx
    cases h
    refine ⟨fun m hm => ?_, ?_⟩
    · obtain ⟨hs, hlen, hne⟩ := singleLexeme_mark hr hx hm
      exact ⟨hs, by rw [hlen], fun h => (hne h).elim⟩
    · rintro rfl
      unfold singleLexeme? at hx
      repeat' split at hx
      all_goals cases hx
  split at h
  · rename_i hcomma
    obtain rfl := beq_iff_eq.1 hcomma
    have h := Except.ok.inj h
    unfold commaLexeme at h
    split at h <;> cases h
    · exact ⟨fun m hm => by cases hm; exact ⟨‹_›, rfl, nofun⟩, nofun⟩
    · refine ⟨fun m hm => ?_, nofun⟩
      cases hm
      refine ⟨?_, rfl, fun _ => Bool.eq_false_iff.2 ‹_›⟩
      simp [Cursor.startsWith, Sugar.text, hr]
  split at h
  · unfold stringLexeme at h
    split at h <;> cases h
    exact ⟨nofun, nofun⟩
  split at h
  · unfold charLexeme at h
    split at h
    · cases h
    split at h <;> cases h
    exact ⟨nofun, nofun⟩
  split at h
  · refine ⟨fun m hm => ?_, fun hdot => (hashLexeme_ne_dot h hdot).elim⟩
    obtain ⟨hs, hn, hne⟩ := hashLexeme_mark h hm
    exact ⟨hs, hn, fun h => (hne h).elim⟩
  · refine ⟨fun m hm => ?_, fun _ => h⟩
    unfold atomLexeme at h
    split at h <;> cases h
    split at hm <;> cases hm

/-- Once something was escaped, the atom is known as such. -/
theorem scanAtom_escaped {out cs : List Char} {pos : Nat} {text : String} {escaped b : Bool}
    (hb : b = true) (h : scanAtom out b pos cs = .ok (text, escaped, next)) : escaped = true := by
  fun_induction scanAtom out b pos cs with
  | case1 => cases h; exact hb
  | case2 => cases h
  | case3 out _ pos c rest ih => exact ih rfl h
  | case4 => cases h; exact hb
  | case5 out _ pos c rest _ _ _ ih => exact ih hb h

/-- Without escapes the text of an atom is what was taken. -/
theorem scanAtom_text {out cs : List Char} {pos : Nat} {text : String} {b : Bool}
    (h : scanAtom out b pos cs = .ok (text, false, next)) :
    ∃ taken, cs = taken ++ next.rest ∧ next.pos = pos + taken.length ∧
      text = String.ofList (out.reverse ++ taken) := by
  fun_induction scanAtom out b pos cs with
  | case1 => cases h; exact ⟨[], by simp⟩
  | case2 => cases h
  | case3 out _ pos c rest ih => cases scanAtom_escaped rfl h
  | case4 => cases h; exact ⟨[], by simp⟩
  | case5 out _ pos c rest _ _ _ ih =>
    obtain ⟨taken, rfl, hpos, rfl⟩ := ih h
    exact ⟨c :: taken, by simp, by rw [hpos, List.length_cons]; omega, by simp⟩

/-- Only a dot that stands alone is taken as one. -/
theorem lexeme_dot (hr : c.rest = x :: tail) (h : lexeme tolerant c x = .ok (.dot, next)) :
    c.rest = '.' :: next.rest ∧ next = c.drop 1 := by
  have hatom := (lexeme_mark hr h).2 rfl
  unfold atomLexeme at hatom
  split at hatom
  · cases hatom
  rename_i text escaped after hscan
  obtain ⟨hif, rfl⟩ := Prod.mk.inj (Except.ok.inj hatom)
  split at hif
  · rename_i htext
    simp only [Bool.and_eq_true, beq_iff_eq, Bool.not_eq_true'] at htext
    obtain ⟨rfl, rfl⟩ := htext
    obtain ⟨taken, hrest, hpos, htext⟩ := scanAtom_text hscan
    have htaken : taken = ['.'] := by
      have := congrArg String.toList htext
      simpa using this.symm
    subst htaken
    refine ⟨hrest, ?_⟩
    cases after
    simp_all [Cursor.drop]
  · cases hif

/-- A dot with white space, a parenthesis or nothing behind it is a token. -/
theorem lexeme_of_atDot (tolerant : Bool) (h : atDot c = true) :
    ∃ tail next, c.rest = '.' :: tail ∧ lexeme tolerant c '.' = .ok (.dot, next) := by
  have hscan : ∃ tail next, c.rest = '.' :: tail ∧ atomAt c = .ok (".", false, next) := by
    unfold atDot at h
    split at h
    · rename_i hr
      exact ⟨[], _, hr, by rw [atomAt, hr]; rfl⟩
    · rename_i x tail hr
      refine ⟨_, ⟨c.pos + 1, x :: tail⟩, hr, ?_⟩
      have hx : isDelimiter x = true := by
        simp only [Bool.or_eq_true, beq_iff_eq] at h
        rcases h with (h | rfl) | rfl
        · simp only [isDelimiter, h, Bool.true_or]
        · decide
        · decide
      have hback : x ≠ '\\' := by
        rintro rfl
        revert hx
        decide
      rw [atomAt, hr, scanAtom, if_neg (by decide), scanAtom, if_pos hx]
      · rfl
      · exact fun h => (hback h).elim
      · exact fun _ _ h => (hback h).elim
      · intro h
        cases h
      · intro c rest h
        cases h
    · cases h
  obtain ⟨tail, next, hr, hatom⟩ := hscan
  refine ⟨tail, next, hr, ?_⟩
  change atomLexeme c = _
  simp only [atomLexeme, hatom]
  rfl

end Tokens

end PatternLint.Reader
