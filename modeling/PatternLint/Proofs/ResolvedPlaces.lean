import PatternLint.Proofs.JoinedReading
import PatternLint.Proofs.PositionRecovery
import PatternLint.Proofs.Skipping

/-! Recovered places lie in the text. In a structure that is closed later on, passing elements ends
before the mark that closes it or gives up. Outside of all structures only abbreviations are
entered, and a path to a part of a form passes no element there. -/

namespace PatternLint.Reader

variable {text : List Char} {c d inside next : Cursor} {tolerant : Bool} {steps : List Nat}
  {form v part : Value} {origin origin' depth height count index offset pos n : Nat}

/-! What can be entered is a token -/

/-- A `#` is skipped only as part of a skip mark. -/
theorem skipBlanks_hash {x : Char} {rest : List Char} (hx : x ≠ '@') :
    skipBlanks ⟨pos, '#' :: x :: rest⟩ = .ok ⟨pos, '#' :: x :: rest⟩ := by
  rw [skipBlanks]
  split
  · rfl
  · rename_i h
    cases h
    exact absurd rfl hx
  · rename_i h
    cases h
    rfl

/-- What the resolver takes for an abbreviation is one for the reader. -/
theorem token?_of_sugar (h : markLength? sugarMarks c = some n) :
    ∃ mark, token? tolerant c = .ok (some (⟨.sugar mark, c.pos, (c.drop n).pos⟩, c.drop n)) := by
  obtain ⟨m, hm, rfl⟩ := Option.map_eq_some_iff.1 h
  have hstart : c.startsWith m := List.find?_some hm
  obtain ⟨tail, hc⟩ := startsWith_eq hstart
  generalize c.pos = pos at hc
  subst hc
  have solid : ∀ {x : Char} {rest : List Char}, x ∈ [apostrophe, graveAccent, ','] →
      skipBlanks ⟨pos, x :: rest⟩ = .ok ⟨pos, x :: rest⟩ := fun hx => by
    simp only [List.mem_cons, List.not_mem_nil, or_false] at hx
    rcases hx with rfl | rfl | rfl <;> exact skipBlanks_of_solid (by decide) (by decide) (by decide)
  simp only [sugarMarks, List.map, List.find?] at hm
  split at hm
  · cases hm
    exact ⟨.function, token?_of_lexeme (skipBlanks_hash (by decide)) rfl rfl⟩
  split at hm
  · cases hm
    exact ⟨.splice, token?_of_lexeme (solid (by decide)) rfl rfl⟩
  rename_i hsplice
  split at hm
  · cases hm
    exact ⟨.quote, token?_of_lexeme (solid (by decide)) rfl rfl⟩
  split at hm
  · cases hm
    exact ⟨.backquote, token?_of_lexeme (solid (by decide)) rfl rfl⟩
  split at hm
  · cases hm
    have hcomma : lexeme tolerant ⟨pos, Sugar.unquote.text.toList ++ tail⟩ ',' =
        .ok (.sugar .unquote, (Cursor.mk pos (Sugar.unquote.text.toList ++ tail)).drop 1) :=
      congrArg Except.ok (if_neg (Bool.eq_false_iff.1 hsplice))
    exact ⟨.unquote, token?_of_lexeme (solid (by decide)) rfl hcomma⟩
  · cases hm

/-- What the resolver takes for an opening bracket is one for the reader. -/
theorem token?_of_opener (h : markLength? openMarks c = some n) :
    ∃ o, token? tolerant c = .ok (some (⟨.opener o, c.pos, (c.drop n).pos⟩, c.drop n)) := by
  obtain ⟨m, hm, rfl⟩ := Option.map_eq_some_iff.1 h
  have hstart : c.startsWith m := List.find?_some hm
  have hmem := List.mem_of_find?_eq_some hm
  obtain ⟨tail, hc⟩ := startsWith_eq hstart
  generalize c.pos = pos at hc
  subst hc
  clear h hm hstart
  simp only [openMarks, List.mem_cons, List.not_mem_nil, or_false] at hmem
  rcases hmem with rfl | rfl | rfl | rfl | rfl
  · exact ⟨.record, token?_of_lexeme (skipBlanks_hash (by decide)) rfl rfl⟩
  · exact ⟨.properties, token?_of_lexeme (skipBlanks_hash (by decide)) rfl rfl⟩
  · exact ⟨.hashVector "#[", token?_of_lexeme (skipBlanks_hash (by decide)) rfl rfl⟩
  · exact ⟨.list, token?_of_lexeme
      (skipBlanks_of_solid (by decide) (by decide) (by decide)) rfl rfl⟩
  · exact ⟨.vector, token?_of_lexeme
      (skipBlanks_of_solid (by decide) (by decide) (by decide)) rfl rfl⟩

/-- The symbol that an abbreviation implies is not passed. -/
theorem enter?_cases (tolerant : Bool) (h : enter? c index = some (inside, count)) :
    (∃ mark, token? tolerant c = .ok (some (⟨.sugar mark, c.pos, inside.pos⟩, inside)) ∧
      count = index - 1) ∨
    ∃ o, token? tolerant c = .ok (some (⟨.opener o, c.pos, inside.pos⟩, inside)) := by
  unfold enter? at h
  split at h
  · rename_i hsugar
    cases h
    obtain ⟨mark, htok⟩ := token?_of_sugar hsugar
    exact .inl ⟨mark, htok, rfl⟩
  · obtain ⟨n, hopen, heq⟩ := Option.map_eq_some_iff.1 h
    cases heq
    exact .inr (token?_of_opener hopen)

theorem skipBlanks_of_blanks (h : blanks c = .ok d) : skipBlanks c = .ok d := by
  unfold blanks at h
  cases hs : skipBlanks c with
  | error f =>
    rw [hs] at h
    cases h
  | ok here =>
    rw [hs] at h
    cases h
    rfl

/-- A step goes inside, passes some elements, and stops behind blanks and perhaps a dot. -/
theorem stepInto_ok (h : stepInto c index = .ok d) :
    ∃ inside count passed here, enter? c index = some (inside, count) ∧
      passElements count inside = .ok passed ∧ blanks passed = .ok here ∧
      (if atDot here then blanks (here.drop 1) else pure here) = .ok d := by
  unfold stepInto at h
  split at h
  · cases h
  · rename_i inside count henter
    obtain ⟨passed, hpassed, h⟩ := bind_ok h
    obtain ⟨here, hhere, h⟩ := bind_ok h
    exact ⟨inside, count, passed, here, henter, hpassed, hhere, h⟩

/-! Steps along a path -/

/-- Steps that lead to a place are followed up to there. -/
theorem follow_append {steps : List Nat} (more : List Nat) (h : steps.foldlM stepInto c = .ok d) :
    follow (steps ++ more) c = follow more d := by
  induction steps generalizing c with
  | nil =>
    cases h
    rfl
  | cons index steps ih =>
    rw [List.foldlM_cons] at h
    obtain ⟨mid, hstep, h⟩ := bind_ok h
    rw [List.cons_append, follow, hstep]
    exact ih h

/-- Steps end where something stands. -/
theorem skipBlanks_of_steps {steps : List Nat} (hs : skipBlanks c = .ok c)
    (h : steps.foldlM stepInto c = .ok d) : skipBlanks d = .ok d := by
  induction steps generalizing c with
  | nil =>
    cases h
    exact hs
  | cons index steps ih =>
    rw [List.foldlM_cons] at h
    obtain ⟨mid, hstep, h⟩ := bind_ok h
    obtain ⟨inside, count, passed, here, -, -, hhere, hmid⟩ := stepInto_ok hstep
    refine ih ?_ h
    split at hmid
    · exact skipBlanks_idem (skipBlanks_of_blanks hmid)
    · cases hmid
      exact skipBlanks_idem (skipBlanks_of_blanks hhere)

/-- One more index is one more step. -/
theorem resolve_cons (hs : skipBlanks (Cursor.of text offset) = .ok (Cursor.of text offset))
    (hpath : path.reverse.foldlM stepInto (Cursor.of text offset) = .ok c) (i : Nat) :
    resolve text offset (i :: path) = (follow [i] c).map Cursor.pos := by
  rw [resolve, hs, List.reverse_cons]
  simp only [bind, Except.bind, follow_append [i] hpath]
  cases follow [i] c <;> rfl

/-- One more index is one more part. -/
theorem part?_cons (hpart : form.part? path.reverse = some v) (hchild : v.child? i = some e) :
    form.part? (i :: path).reverse = some e := by
  rw [Value.part?] at hpart ⊢
  rw [List.reverse_cons, List.foldlM_append, hpart]
  simp [hchild]

/-! Structures that are closed -/

/-- Blanks before a token do not matter to skipping. -/
theorem skipFrom_of_blanks (h : skipBlanks c = .ok d) :
    skipFrom origin depth d = skipFrom origin depth c := by
  rw [Joint.skipFrom_eq, Joint.skipFrom_eq, token?_of_blanks h]

theorem skipFrom_of_atDot (h : atDot c = true) (hs : skipBlanks c = .ok c) :
    skipFrom origin depth c = skipFrom origin depth (c.drop 1) := by
  obtain ⟨tail, next, hr, hlex⟩ := lexeme_of_atDot true h
  obtain ⟨-, rfl⟩ := lexeme_dot hr hlex
  rw [skipFrom_of_token (token?_of_lexeme hs hr hlex)]

/-- What is stepped over within some structures is stepped over within more of them. -/
theorem skipFrom_within {c : Cursor} {height : Nat} (h : skipFrom origin' height c = .ok d) :
    skipFrom origin (depth + 1 + height) c = skipFrom origin (depth + 1) d := by
  obtain ⟨⟨lex, start, stop⟩, next, htok⟩ := token?_of_skipFrom h
  have hshort : next.rest.length < c.rest.length := token?_shorter htok
  rw [skipFrom_of_token htok] at h ⊢
  cases lex with
  | opener o => exact skipFrom_within h
  | closer k =>
    match height, h with
    | 1, h =>
      cases h
      rfl
    | height + 2, h => exact skipFrom_within h
  | sugar _ | labelDef _ | boolVector _ | extension | dot => exact skipFrom_within h
  | _ =>
    refine (if_neg (by omega)).trans ?_
    cases height with
    | zero =>
      cases h
      rfl
    | succ height => exact skipFrom_within ((if_neg (Nat.succ_ne_zero height)).symm.trans h)
termination_by c.rest.length

/-- A place of the text within a structure that is closed later on. -/
structure Within (text : List Char) (c : Cursor) : Prop where
  on : On text c
  closed : ∃ origin depth last, skipFrom origin (depth + 1) c = .ok last

namespace Within

/-- Where a structure is still to be closed, the text has not come to its end. -/
theorem of_reached (hc : Reached text c) {last : Cursor}
    (h : skipFrom origin (depth + 1) c = .ok last) : Within text c := by
  refine ⟨hc.resolve_right fun hnil => ?_, origin, depth, last, h⟩
  obtain ⟨tok, mid, htok⟩ := token?_of_skipFrom h
  have hshort := token?_shorter htok
  rw [hnil] at hshort
  cases hshort

theorem blanks (h : Within text c) (hd : blanks c = .ok d) : Within text d := by
  obtain ⟨hon, origin, depth, last, hskip⟩ := h
  have hs := skipBlanks_of_blanks hd
  exact ⟨(skipBlanks_ends hon).of_ok hs, origin, depth, last, (skipFrom_of_blanks hs).trans hskip⟩

theorem dot (h : Within text c) (hs : skipBlanks c = .ok c) (hdot : atDot c) :
    Within text (c.drop 1) := by
  obtain ⟨hon, origin, depth, last, hskip⟩ := h
  refine ⟨hon.drop ?_, origin, depth, last, (skipFrom_of_atDot hdot hs).symm.trans hskip⟩
  obtain ⟨tail, next, hr, -⟩ := lexeme_of_atDot true hdot
  simp [hr]

theorem skipDatum (h : Within text c) (hd : skipDatum c = .ok d) : Within text d := by
  obtain ⟨hon, origin, depth, last, hskip⟩ := h
  have hreached : Reached text d := ((skipFrom_ends hon.inside (.inl hon)).of_ok hd).1
  exact of_reached hreached ((skipFrom_within hd).symm.trans hskip)

theorem passElements (h : Within text c) (hd : passElements count c = .ok d) : Within text d := by
  induction count generalizing c with
  | zero =>
    cases hd
    exact h
  | succ count ih =>
    obtain ⟨here, hhere, hd⟩ := bind_ok hd
    obtain ⟨next, hnext, hd⟩ := bind_ok hd
    have hplace := h.blanks hhere
    split at hnext
    · have hs := skipBlanks_idem (skipBlanks_of_blanks hhere)
      exact ih ((hplace.dot hs ‹_›).skipDatum hnext) hd
    · exact ih (hplace.skipDatum hnext) hd

theorem entered (h : Within text c) (hi : enter? c index = some (inside, count)) :
    Within text inside := by
  obtain ⟨hon, origin, depth, last, hskip⟩ := h
  rcases enter?_cases true hi with ⟨mark, htok, -⟩ | ⟨o, htok⟩
  all_goals
    rw [skipFrom_of_token htok] at hskip
    exact of_reached (Reached.token (.inl hon) htok).1.reached hskip

/-- Behind the elements that are passed comes the next one, perhaps after a dot. -/
theorem element {passed here : Cursor} (h : Within text inside)
    (hpassed : Reader.passElements count inside = .ok passed)
    (hhere : Reader.blanks passed = .ok here)
    (hd : (if atDot here then Reader.blanks (here.drop 1) else pure here) = .ok d) :
    Within text d := by
  have hplace := (h.passElements hpassed).blanks hhere
  split at hd
  · have hs := skipBlanks_idem (skipBlanks_of_blanks hhere)
    exact (hplace.dot hs ‹_›).blanks hd
  · cases hd
    exact hplace

theorem follow (h : Within text c) (hd : follow steps c = .ok d) : On text d := by
  induction steps generalizing c with
  | nil =>
    cases hd
    exact h.on
  | cons index steps ih =>
    rw [Reader.follow] at hd
    split at hd
    · rename_i next hstep
      obtain ⟨inside, count, passed, here, henter, hpassed, hhere, hnext⟩ := stepInto_ok hstep
      exact ih ((h.entered henter).element hpassed hhere hnext) hd
    · cases hd
    · cases hd
      exact h.on

end Within

/-! Data at the top of a text -/

/-- A token begins a datum of this value. -/
def Begins (c : Cursor) (v : Value) : Prop :=
  ∃ bound labels tok inside r, token? false c = .ok (some (tok, inside)) ∧
    datumFrom bound labels tok inside = .ok r ∧ r.value = v

/-- A datum begins behind the blanks. -/
theorem Begins.behindBlanks (h : Begins c v) (hs : skipBlanks c = .ok d) : Begins d v := by
  obtain ⟨bound, labels, tok, inside, r, htok, hread⟩ := h
  exact ⟨bound, labels, tok, inside, r, (token?_of_blanks hs).trans htok, hread⟩

/-- No datum begins with a dot that stands alone. -/
theorem Begins.not_atDot (h : Begins c v) (hs : skipBlanks c = .ok c) : atDot c = false := by
  obtain ⟨bound, labels, ⟨lex, start, stop⟩, inside, r, htok, hread, -⟩ := h
  refine Takes.not_atDot ⟨stop, htok⟩ hs ?_
  rintro rfl
  cases bound <;> cases hread

/-- A structure that can be read is closed. -/
theorem Begins.within (h : Begins c v) (hc : On text c) {o : Opener} {start stop : Nat}
    (ho : token? false c = .ok (some (⟨.opener o, start, stop⟩, inside))) : Within text inside := by
  obtain ⟨bound, labels, tok, inside', r, htok, hread, -⟩ := h
  rw [ho] at htok
  cases htok
  have hskip : skipFrom 0 0 c = .ok r.next := (reading_passes bound).1 ho hread 0 0
  have htok := token?_tolerant ho
  rw [skipFrom_of_token htok] at hskip
  exact .of_reached (Reached.token (.inl hc) htok).1.reached hskip

/-- An abbreviation stands for a list of two. -/
theorem Begins.abbreviated (h : Begins c v) {mark : Sugar} {start stop : Nat}
    (ho : token? false c = .ok (some (⟨.sugar mark, start, stop⟩, inside))) :
    ∃ inner, v = .list [.sym mark.symbol, inner] ∧ Begins inside inner := by
  obtain ⟨bound, labels, tok, inside', r, htok, hread, rfl⟩ := h
  rw [ho] at htok
  cases htok
  cases bound with
  | zero => cases hread
  | succ bound =>
    rw [datumFrom] at hread
    obtain ⟨⟨tok, next⟩, hnext, hread⟩ := bind_ok hread
    obtain ⟨inner, hinner, hread⟩ := bind_ok hread
    cases hread
    exact ⟨inner.value, rfl, bound, labels, tok, next, inner, nextToken_eq_ok hnext, hinner, rfl⟩

/-- Following a path to a part stays within the text. -/
theorem Begins.follow (h : Begins c v) (hc : On text c) (hpart : v.part? steps = some part)
    (hd : follow steps c = .ok d) : On text d := by
  induction steps generalizing c v with
  | nil =>
    cases hd
    exact hc
  | cons index steps ih =>
    rw [Reader.follow] at hd
    split at hd
    · rename_i next hstep
      obtain ⟨inside, count, passed, here, henter, hpassed, hhere, hnext⟩ := stepInto_ok hstep
      rcases enter?_cases false henter with ⟨mark, htok, rfl⟩ | ⟨o, htok⟩
      · -- A step leads to one of the two parts, so none is passed.
        obtain ⟨inner, rfl, hinner⟩ := h.abbreviated htok
        rw [Value.part?, List.foldlM_cons] at hpart
        obtain ⟨child, hchild, hpart⟩ := Option.bind_eq_some_iff.1 hpart
        have hindex : index - 1 = 0 := by
          have hlt : index < 2 := (List.getElem?_eq_some_iff.1 hchild).1
          omega
        rw [hindex] at hpassed
        cases hpassed
        have hs := skipBlanks_of_blanks hhere
        have hinner := hinner.behindBlanks hs
        rw [hinner.not_atDot (skipBlanks_idem hs)] at hnext
        obtain rfl : here = next := Except.ok.inj hnext
        have hinside : On text inside :=
          (Reached.token (.inl hc) (token?_tolerant htok)).1.on (by rintro ⟨⟩)
        have hon : On text here := (skipBlanks_ends hinside).of_ok hs
        obtain _ | _ | index := index
        · cases hchild
          cases steps with
          | nil =>
            cases hd
            exact hon
          | cons i steps => cases hpart
        · cases hchild
          exact ih hinner hon hpart hd
        · cases hchild
      · exact ((h.within hc htok).element hpassed hhere hnext).follow hd
    · cases hd
    · cases hd
      exact hc

/-! Forms of a text -/

/-- What is read from a text begins at its offset. -/
structure Placed (text : List Char) (form : Value × Nat) : Prop where
  on : On text (Cursor.of text form.2)
  blanks : skipBlanks (Cursor.of text form.2) = .ok (Cursor.of text form.2)
  begins : Begins (Cursor.of text form.2) form.1

/-- Where a datum is read, it begins. -/
theorem datum_begins {size : Nat} (h : datum size c = .ok (v, next)) : Begins c v := by
  obtain ⟨⟨tok, inside⟩, htok, h⟩ := bind_ok h
  obtain ⟨r, hr, h⟩ := bind_ok h
  cases h
  exact ⟨_, _, tok, inside, r, nextToken_eq_ok htok, hr, rfl⟩

theorem datum_reached {size : Nat} (hc : On text c) (hsize : text.length ≤ size)
    (h : datum size c = .ok (v, next)) : Reached text next := by
  obtain ⟨r, hr, hall⟩ := datum_settles_size hc
  have hlength : c.rest.length ≤ size := by
    rw [hc.length_rest]
    omega
  have hends : EndsIn _ _ (datum size c) := (hall size hlength).symm ▸ hr
  exact (hends.of_ok h).1

/-- Every form has begun at its offset; the induction is on the rounds of the reader. -/
theorem readFrom_placed {size bound : Nat} {forms : List (Value × Nat)} (hsize : text.length ≤ size)
    (hc : Reached text c) (hforms : ∀ form ∈ forms, Placed text form) :
    ∀ form ∈ (readFrom size bound forms c).forms, Placed text form := by
  induction bound generalizing forms c with
  | zero => simpa [readFrom] using hforms
  | succ bound ih =>
    rw [readFrom]
    split
    · simpa using hforms
    rename_i here hhere
    have hreached : Reached text here := (hc.skipBlanks_ends.of_ok hhere).1
    split
    · simpa using hforms
    rename_i hrest
    have hon : On text here := hreached.resolve_right fun h => hrest (by simp [h])
    split
    · rename_i v next hv
      refine ih (datum_reached hon hsize hv) fun form hform => ?_
      rcases List.mem_cons.1 hform with rfl | hform
      · refine ⟨?_, ?_, ?_⟩ <;> rw [hon.eq_of]
        · exact hon
        · exact skipBlanks_idem hhere
        · exact datum_begins hv
      · exact hforms form hform
    · split
      · rename_i next hskip
        exact ih ((skipFrom_ends hon.inside hreached).of_ok hskip).1 hforms
      · simpa using hforms
    · simpa using hforms

theorem read_placed (text : List Char) : ∀ form ∈ (read text).forms, Placed text form :=
  readFrom_placed (Nat.le_refl _) (.inl (On.start text)) (List.forall_mem_nil _)

/-! Resolved places -/

/-- The place of a part of a form that was read lies in the text. -/
theorem resolve_inside {path : Path} (hform : (form, offset) ∈ (read text).forms)
    (hpart : form.part? path.reverse = some part) (h : resolve text offset path = .ok pos) :
    pos ≤ text.length := by
  have hplaced := read_placed text _ hform
  obtain ⟨here, hhere, h⟩ := bind_ok h
  obtain ⟨d, hd, h⟩ := bind_ok h
  cases h
  rw [hplaced.blanks] at hhere
  cases hhere
  exact (hplaced.begins.follow hplaced.on hpart hd).inside

/-- So does that of no part of anything. -/
theorem resolve_nil_inside (hoffset : offset ≤ text.length) (h : resolve text offset [] = .ok pos) :
    pos ≤ text.length := by
  obtain ⟨here, hhere, h⟩ := bind_ok h
  cases h
  exact ((skipBlanks_ends ⟨hoffset, rfl⟩).of_ok hhere).inside

theorem charPlace_inside {origin : Nat} {index : Int} (ho : origin ≤ text.length) (hc : On text c)
    (h : charPlace origin index c = .ok pos) : pos ≤ text.length := by
  fun_induction charPlace origin index c with
  | case1 =>
    cases h
    exact ho
  | case2 | case4 | case6 | case8 =>
    cases h
    exact hc.inside
  | case3 => cases h
  | case5 _ c tail _ next hnext ih => exact ih ((character_ends true hc).of_ok hnext) h
  | case7 _ c tail _ code next hnext _ ih => exact ih ((character_ends true hc).of_ok hnext) h
  | case9 _ c x tail _ _ hr _ ih => exact ih (hc.drop (by simp [hr])) h

/-- The position of a character is within the text, even if it is not found. -/
theorem stringPosition_inside {index : Int} (hoffset : offset ≤ text.length)
    (h : stringPosition text offset index = .ok pos) : pos ≤ text.length := by
  have hon : On text (Cursor.of text offset) := ⟨hoffset, rfl⟩
  simp only [stringPosition] at h
  split at h
  · rename_i hquote
    exact charPlace_inside hoffset (hon.dropText hquote) h
  · cases h
    exact hoffset

end PatternLint.Reader
