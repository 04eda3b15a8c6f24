import PatternLint.Proofs.JoinedLexing
import PatternLint.Proofs.ReadingFaults

/-! Reading two texts one after the other. With a line end between them, nothing of the first text
runs into the second, and the second is read as it is alone. -/

namespace PatternLint.Reader

section Blanks

variable {c here : Cursor} {x : Char} {tail : List Char}

theorem skipBlanks_nil (hr : c.rest = []) : skipBlanks c = .ok c := by
  rw [skipBlanks]
  split <;> simp_all

theorem skipBlanks_blank (hr : c.rest = x :: tail) (hb : Text.isBlank x) :
    skipBlanks c = skipBlanks (c.skip 1) := by
  rw [skipBlanks]
  split
  · simp_all
  · rename_i hr'
    obtain rfl := (List.cons.inj (hr.symm.trans hr')).1
    cases hb
  · rename_i hr'
    obtain rfl := (List.cons.inj (hr.symm.trans hr')).1
    rw [if_pos hb]

theorem skipBlanks_comment (hr : c.rest = ';' :: tail) :
    skipBlanks c = skipBlanks (c.skip (commentLength c.rest)) := by
  rw [skipBlanks]
  split
  · simp_all
  · rename_i hr'
    cases hr.symm.trans hr'
  · rename_i hr'
    obtain rfl := (List.cons.inj (hr.symm.trans hr')).1
    rfl

/-- A skip mark goes over as many characters as its count says, or to the end of the text. -/
theorem skipBlanks_mark (hr : c.rest = '#' :: '@' :: tail) :
    skipBlanks c =
      if tail.takeWhile Text.isDigit = [] ∨ tail.takeWhile Text.isDigit = ['0', '0'] then
        .ok (c.drop c.rest.length)
      else
        match Text.Numeral.read 10 (tail.takeWhile Text.isDigit) with
        | .error f => .error f
        | .ok n => skipBlanks (c.skip (2 + (tail.takeWhile Text.isDigit).length + n.toNat)) := by
  rw [skipBlanks]
  split
  · simp_all
  · rename_i hr'
    obtain rfl : tail = _ := by simpa using hr.symm.trans hr'
    rfl
  · rename_i hne hr'
    obtain ⟨rfl, rfl⟩ := List.cons.inj (hr.symm.trans hr')
    exact (hne _ rfl rfl).elim

/-- Anything but blanks, comments and marks stays. -/
theorem skipBlanks_stays (hr : c.rest = x :: tail) (hm : x = '#' → tail.head? ≠ some '@')
    (hb : ¬ Text.isBlank x) (hs : x ≠ ';') : skipBlanks c = .ok c := by
  rw [skipBlanks]
  split
  · rfl
  · rename_i hr'
    obtain ⟨rfl, rfl⟩ := List.cons.inj (hr.symm.trans hr')
    exact (hm rfl rfl).elim
  · rename_i hr'
    obtain rfl := (List.cons.inj (hr.symm.trans hr')).1
    rw [if_neg hb, if_neg (by simpa using hs)]

end Blanks

namespace Joint

variable {j : Joint} {α β γ : Type} {A : α → β → Prop} {c c' here : Cursor} {tolerant : Bool}

theorem At.self (h : j.At c c') : j.At c (j.place c) :=
  .refl h.inside

/-- Skip marks occur only where nothing is behind the text. -/
theorem At.unmarked (h : j.At c c') {tail : List Char} (hr : c.rest = '#' :: '@' :: tail) :
    j.behind = [] := by
  rcases h.inside with hb | hon
  · exact hb
  rcases j.joined with hb | ⟨-, hmark, -⟩
  · exact hb
  refine (hmark ?_).elim
  have hprefix : ['#', '@'] <+: j.text.drop c.pos := by
    rw [← hon.rest, hr]
    exact ⟨tail, rfl⟩
  exact hprefix.isInfix.trans (List.drop_suffix _ _).isInfix

theorem At.skip (h : j.At c c') {n : Nat} (hn : j.behind = [] ∨ n ≤ c.rest.length) :
    j.At (c.skip n) (c'.skip n) := by
  have hsame : (c'.rest.take n).length = (c.rest.take n).length := by
    rw [h.rest, j.take_of_le hn]
  rw [Cursor.skip, Cursor.skip, hsame]
  exact h.drop (.inr (by simp))

/-- A comment ends with its line, or with the text, and then the end of a line follows. -/
theorem commentLength_joined (j : Joint) (cs : List Char) :
    commentLength (cs ++ j.behind) = commentLength cs := by
  rw [commentLength, commentLength, j.takeWhile (by decide)]

/-- A comment that runs to the end of the text takes the line end behind it along. -/
theorem At.skip_comment (h : j.At c c') :
    ∃ d, j.At (c.skip (commentLength c.rest)) d ∧
      skipBlanks (c'.skip (commentLength c.rest)) = skipBlanks d := by
  by_cases hn : j.behind = [] ∨ commentLength c.rest ≤ c.rest.length
  · exact ⟨_, h.skip hn, rfl⟩
  · obtain ⟨hb, hlong⟩ := not_or.mp hn
    obtain ⟨more, hmore⟩ := j.behind_cases.resolve_left hb
    have hlen : commentLength c.rest = c.rest.length + 1 := by
      have := (List.takeWhile_prefix (· != '\n') (l := c.rest)).length_le
      rw [commentLength] at hlong ⊢
      omega
    have hend : j.At (c.skip (commentLength c.rest)) (c'.drop c.rest.length) := by
      rw [Cursor.skip, hlen, List.take_of_length_le (Nat.le_succ _)]
      exact h.drop (.inr (Nat.le_refl _))
    refine ⟨_, hend, ?_⟩
    have hrest : (c'.drop c.rest.length).rest = '\n' :: more := by
      simp [Cursor.drop, h.rest, hmore]
    rw [skipBlanks_blank hrest (by decide), Cursor.skip, Cursor.skip, hlen, hrest, h.rest, hmore,
      Cursor.drop_drop]
    simp

/-- Blanks up to the end of the text go on behind it; otherwise they end at the same place. -/
theorem skipBlanks_joined (h : j.At c c') (hs : skipBlanks c = .ok here) :
    j.At here (j.place here) ∧ skipBlanks c' = skipBlanks (j.place here) ∧
      (here.rest ≠ [] → skipBlanks (j.place here) = .ok (j.place here)) := by
  fun_induction skipBlanks c generalizing c' with
  | case1 c hr =>
    cases hs
    rw [h.place]
    exact ⟨h.self, rfl, fun hne => (hne hr).elim⟩
  | case2 =>
    rename_i c tail hr digits hd
    cases hs
    have hb := h.unmarked hr
    have hr' : c'.rest = '#' :: '@' :: tail := by rw [h.place, rest_of_nil hb, hr]
    have hend : j.At (c.drop c.rest.length) (c'.drop c'.rest.length) := by
      rw [h.place, rest_of_nil hb]
      exact h.self.drop (.inl hb)
    have hnil : (c.drop c.rest.length).rest = [] := by simp [Cursor.drop]
    refine ⟨hend.self, ?_, fun hne => (hne hnil).elim⟩
    rw [skipBlanks_mark hr', if_pos hd, ← hend.place, skipBlanks_nil]
    simp [Cursor.drop]
  | case3 => cases hs
  | case4 =>
    rename_i c tail hr digits hd n hn ih
    have hb := h.unmarked hr
    have hr' : c'.rest = '#' :: '@' :: tail := by rw [h.place, rest_of_nil hb, hr]
    obtain ⟨hat, hsame, hstays⟩ := ih (h.skip (.inl hb)) hs
    refine ⟨hat, ?_, hstays⟩
    rw [skipBlanks_mark hr', if_neg hd, hn, ← hsame]
  | case5 c x tail hm hr hx ih =>
    have hr' : c'.rest = x :: (tail ++ j.behind) := by rw [h.rest, hr, List.cons_append]
    obtain ⟨hat, hsame, hstays⟩ := ih (h.skip (.inr (by simp [hr]))) hs
    exact ⟨hat, by rw [skipBlanks_blank hr' hx, hsame], hstays⟩
  | case6 c x tail hm hr hb hx ih =>
    obtain rfl := beq_iff_eq.1 hx
    have hr' : c'.rest = ';' :: (tail ++ j.behind) := by rw [h.rest, hr, List.cons_append]
    obtain ⟨d, hd, hskip⟩ := h.skip_comment
    obtain ⟨hat, hsame, hstays⟩ := ih hd hs
    refine ⟨hat, ?_, hstays⟩
    rw [skipBlanks_comment hr', h.rest, j.commentLength_joined, hskip, hsame]
  | case7 c x tail hm hr hb hx =>
    cases hs
    have hr' : (j.place here).rest = x :: (tail ++ j.behind) := by
      rw [h.self.rest, hr, List.cons_append]
    refine ⟨h.self, by rw [h.place], fun _ => ?_⟩
    refine skipBlanks_stays hr' ?_ hb (by simpa using hx)
    rintro rfl
    cases tail with
    | nil =>
      obtain hbehind | ⟨more, hbehind⟩ := j.behind_cases <;> simp [hbehind]
    | cons y tail =>
      intro hy
      obtain rfl : y = '@' := by simpa using hy
      exact hm tail rfl rfl

/-- A count that is refused is refused in the longer text. -/
theorem skipBlanks_refused (h : j.At c c') (hb : j.behind = []) {f : Text.Numeral.Fault}
    (hs : skipBlanks c = .error f) : skipBlanks c' = .error f := by
  fun_induction skipBlanks c generalizing c' with
  | case1 => cases hs
  | case2 => cases hs
  | case3 =>
    rename_i c tail hr digits hd f hf
    cases hs
    have hr' : c'.rest = '#' :: '@' :: tail := by rw [h.place, rest_of_nil hb, hr]
    rw [skipBlanks_mark hr', if_neg hd, hf]
  | case4 =>
    rename_i c tail hr digits hd n hn ih
    have hr' : c'.rest = '#' :: '@' :: tail := by rw [h.place, rest_of_nil hb, hr]
    rw [skipBlanks_mark hr', if_neg hd, hn]
    exact ih (h.skip (.inl hb)) hs
  | case5 c x tail hm hr hx ih =>
    have hr' : c'.rest = x :: tail := by rw [h.place, rest_of_nil hb, hr]
    rw [skipBlanks_blank hr' hx]
    exact ih (h.skip (.inl hb)) hs
  | case6 c x tail hm hr hblank hx ih =>
    obtain rfl := beq_iff_eq.1 hx
    have hr' : c'.rest = ';' :: tail := by rw [h.place, rest_of_nil hb, hr]
    rw [skipBlanks_comment hr', hr', ← hr]
    exact ih (h.skip (.inl hb)) hs
  | case7 => cases hs

/-- A token of the text is the next one in the longer text. Where the text
ends there may be more. -/
theorem token?_bind {A : α → β → Prop} {k : Option (Token × Cursor) → Except Fault α}
    {k' : Option (Token × Cursor) → Except Fault β} {pos : Nat} {problem : Problem} (h : j.At c c')
    (hnone : k none = malformed pos problem) (hnone' : k' none = malformed (j.before + pos) problem)
    (hsome : ∀ tok next next', token? tolerant c = .ok (some (tok, next)) → j.At next next' →
      j.Follows A (k (some (tok, next))) (k' (some (j.token tok, next')))) :
    j.Follows A (token? tolerant c >>= k) (token? tolerant c' >>= k') := by
  rw [token?, token?]
  cases hs : skipBlanks c with
  | error f =>
    refine .open_end rfl fun hb => ?_
    rw [skipBlanks_refused h hb hs]
    rfl
  | ok here =>
    obtain ⟨hhere, hsame, hstays⟩ := skipBlanks_joined h hs
    rw [hsame]
    dsimp only
    cases hr : here.rest with
    | nil =>
      have herror : (Except.ok none >>= k) = malformed pos problem := hnone
      rw [herror]
      refine .open_end rfl fun hb => ?_
      have hr' : (j.place here).rest = [] := by rw [rest_of_nil hb, hr]
      rw [skipBlanks_nil hr']
      simp only [hr']
      exact hnone'
    | cons x tail =>
      have hr' : (j.place here).rest = x :: (tail ++ j.behind) := by
        rw [hhere.rest, hr, List.cons_append]
      rw [hstays (by simp [hr])]
      simp only [hr']
      obtain ⟨⟨l, next⟩, ⟨l', next'⟩, hl, hl', hlex, hnext⟩ | ⟨f, hl, hl'⟩ :=
        (lexeme_follows tolerant hhere hr).cases
      · obtain rfl : l' = l := hlex
        rw [hl, hl']
        have hat : next' = j.place next := hnext.place
        have htok : (⟨l', (j.place here).pos, next'.pos⟩ : Token) =
            j.token ⟨l', here.pos, next.pos⟩ := by rw [hat]; rfl
        dsimp only
        rw [htok]
        exact hsome _ _ _ (token?_of_lexeme hs hr hl) hnext
      · rw [hl]
        intro hf
        rw [hl' hf]
        rfl

/-! Data -/

/-- Readings of one value with the same labels, and the places behind it. -/
def SameReading {α : Type} (j : Joint) (r r' : Reading α) : Prop :=
  r'.value = r.value ∧ r'.labels = r.labels ∧ j.At r.next r'.next

theorem malformed_follows {A : α → β → Prop} (pos : Nat) (problem : Problem) :
    j.Follows A (malformed pos problem) (malformed (j.before + pos) problem) :=
  .error _

/-- Where a token is needed, the end of the text is a fault. -/
theorem nextToken_eq (c : Cursor) : nextToken c = token? false c >>= fun
    | none => malformed c.pos .endOfFile
    | some r => .ok r := by
  rw [nextToken]
  rcases token? false c with f | _ | r <;> rfl

theorem nextToken_follows (h : j.At c c') :
    j.Follows (fun t t' => t'.1 = j.token t.1 ∧ j.At t.2 t'.2) (nextToken c) (nextToken c') := by
  rw [nextToken_eq, nextToken_eq]
  have hend : (malformed c'.pos .endOfFile : Except Fault (Token × Cursor)) =
      malformed (j.before + c.pos) .endOfFile := by
    rw [h.place]
    rfl
  exact token?_bind h rfl hend fun tok next next' _ hnext => .ok ⟨rfl, hnext⟩

variable (j) in
def DatumFollows (bound : Nat) : Prop :=
  ∀ ⦃labels tok c c'⦄, j.At c c' →
    j.Follows j.SameReading (datumFrom bound labels tok c) (datumFrom bound labels (j.token tok) c')

variable (j) in
def ListFollows (bound : Nat) : Prop :=
  ∀ ⦃origin items labels c c'⦄, j.At c c' →
    j.Follows j.SameReading (listFrom bound origin items labels c)
      (listFrom bound (j.before + origin) items labels c')

variable (j) in
def ItemsFollow (bound : Nat) : Prop :=
  ∀ ⦃origin closer items labels c c'⦄, j.At c c' →
    j.Follows j.SameReading (itemsFrom bound origin closer items labels c)
      (itemsFrom bound (j.before + origin) closer items labels c')

variable {bound : Nat}

/-- The value of an atom is only refused for a numeral. -/
theorem atomValue_refused {text : String} {escaped : Bool} {f : Fault}
    (h : atomValue text escaped = .error f) : ∃ g, f = .numeral g := by
  unfold atomValue at h
  split at h
  · cases h
  split at h
  · cases h
  split at h
  · rw [readNumeral] at h
    cases hread : Text.Numeral.read 10 (text.toList.filter (· != '.')) <;>
      rw [hread] at h <;> cases h
    exact ⟨_, rfl⟩
  · split at h <;> cases h

/-- The datum behind a mark, and what is made of it. -/
theorem inner_follows {labels : Labels} {k k' : Reading Value → Except Fault (Reading Value)}
    (hd : j.DatumFollows bound) (h : j.At c c')
    (hk : ∀ r r', j.SameReading r r' → j.Follows j.SameReading (k r) (k' r')) :
    j.Follows j.SameReading (nextToken c >>= fun (t, next) => datumFrom bound labels t next >>= k)
      (nextToken c' >>= fun (t, next) => datumFrom bound labels t next >>= k') := by
  refine (nextToken_follows h).bind fun t t' ht => ?_
  obtain ⟨tok, next⟩ := t
  obtain ⟨tok', next'⟩ := t'
  obtain ⟨htok, hnext⟩ := ht
  obtain rfl : tok' = j.token tok := htok
  exact (hd hnext).bind hk

/-- A datum, given its parts: what its first token opens decides what is read on. -/
theorem datum_succ (hd : j.DatumFollows bound) (hl : j.ListFollows bound)
    (hi : j.ItemsFollow bound) : j.DatumFollows (bound + 1) := by
  intro labels tok c c' h
  have here : ∀ v : Value, j.Follows j.SameReading (.ok ⟨v, labels, c⟩) (.ok ⟨v, labels, c'⟩) :=
    fun v => .ok ⟨rfl, rfl, h⟩
  obtain ⟨lex, start, stop⟩ := tok
  simp only [datumFrom, token]
  cases lex with
  | atom text escaped =>
    dsimp only
    cases hv : atomValue text escaped with
    | ok v => exact here v
    | error f =>
      obtain ⟨g, rfl⟩ := atomValue_refused hv
      exact .error _
  | string text => exact here _
  | char code => exact here _
  | number n => exact here _
  | sugar s =>
    refine inner_follows hd h fun r r' hr => .ok ⟨?_, hr.2⟩
    rw [hr.1]
  | opener o =>
    cases o with
    | list => exact hl h
    | properties =>
      refine (hi h).bind fun r r' hr => ?_
      rw [hr.1]
      split
      · exact .ok ⟨rfl, hr.2⟩
      · exact malformed_follows _ _
    | _ =>
      refine (hi h).bind fun r r' hr => .ok ⟨?_, hr.2⟩
      rw [hr.1]
  | boolVector n =>
    refine inner_follows hd h fun r r' hr => ?_
    rw [hr.1]
    split
    · exact .ok ⟨rfl, hr.2⟩
    · exact malformed_follows _ _
  | labelDef label =>
    refine inner_follows hd h fun r r' hr => .ok ⟨hr.1, ?_, hr.2.2⟩
    rw [hr.1, hr.2.1]
  | labelRef label =>
    dsimp only
    split
    · exact here _
    · exact malformed_follows _ _
  | dot => exact malformed_follows _ _
  | closer k => exact malformed_follows _ _
  | extension => exact malformed_follows _ _

/-- A list, given its items and what stands behind a dot. -/
theorem list_succ (hd : j.DatumFollows bound) (hl : j.ListFollows bound) :
    j.ListFollows (bound + 1) := by
  intro origin items labels c c' h
  simp only [listFrom]
  refine token?_bind h rfl rfl fun tok next next' _ hnext => ?_
  have item : j.Follows j.SameReading
      (datumFrom bound labels tok next >>= fun r =>
        listFrom bound origin (r.value :: items) r.labels r.next)
      (datumFrom bound labels (j.token tok) next' >>= fun r =>
        listFrom bound (j.before + origin) (r.value :: items) r.labels r.next) := by
    refine (hd hnext).bind fun r r' hr => ?_
    rw [hr.1, hr.2.1]
    exact hl hr.2.2
  dsimp only [token]
  split
  · exact .ok ⟨rfl, rfl, hnext⟩
  · exact malformed_follows _ _
  · split
    · exact malformed_follows _ _
    · refine inner_follows hd hnext fun r r' hr => ?_
      refine token?_bind hr.2.2 rfl rfl fun close after after' _ hafter => ?_
      obtain ⟨lex, start, stop⟩ := close
      rw [hr.1, hr.2.1]
      match lex with
      | .closer .paren => exact .ok ⟨rfl, rfl, hafter⟩
      | .closer .bracket => exact malformed_follows _ _
      | .opener _ | .sugar _ | .string _ | .char _ | .atom _ _ | .dot | .number _ | .boolVector _
      | .labelDef _ | .labelRef _ | .extension => exact malformed_follows _ _
  · exact item

/-- Items up to a closing bracket. -/
theorem items_succ (hd : j.DatumFollows bound) (hi : j.ItemsFollow bound) :
    j.ItemsFollow (bound + 1) := by
  intro origin closer items labels c c' h
  simp only [itemsFrom]
  refine token?_bind h rfl rfl fun tok next next' _ hnext => ?_
  dsimp only [token]
  split
  · split
    · exact .ok ⟨rfl, rfl, hnext⟩
    · exact malformed_follows _ _
  · refine (hd hnext).bind fun r r' hr => ?_
    rw [hr.1, hr.2.1]
    exact hi hr.2.2

/-- What is read as a part of the text is read in the longer text with every bound. -/
theorem data_follow (j : Joint) (bound : Nat) :
    j.DatumFollows bound ∧ j.ListFollows bound ∧ j.ItemsFollow bound := by
  induction bound with
  | zero =>
    refine ⟨?_, ?_, ?_⟩
    · intro labels tok c c' h
      simp only [datumFrom]
      exact .fail h _
    · intro origin items labels c c' h
      simp only [listFrom]
      exact malformed_follows _ _
    · intro origin closer items labels c c' h
      simp only [itemsFrom]
      exact malformed_follows _ _
  | succ bound ih =>
    obtain ⟨hd, hl, hi⟩ := ih
    exact ⟨datum_succ hd hl hi, list_succ hd hl, items_succ hd hi⟩

/-- A datum is read alike within its bounds on both sides. -/
theorem datum_follows (size : Nat) (h : j.At c c') :
    j.Follows j.Alike (datum size c) (datum size c') := by
  refine (nextToken_follows h).bind fun t t' ht => ?_
  obtain ⟨tok, next⟩ := t
  obtain ⟨tok', next'⟩ := t'
  obtain ⟨htok, hnext⟩ := ht
  obtain rfl : tok' = j.token tok := htok
  refine ((j.data_follow _).1 hnext).bind fun r r' hr => .ok ⟨hr.1, hr.2.2⟩

/-- Skipping goes from token to token and counts the brackets that are open. -/
theorem skipFrom_eq (origin depth : Nat) (c : Cursor) :
    skipFrom origin depth c = token? true c >>= fun
      | none => malformed origin .endOfFile
      | some (tok, next) =>
        match tok.lexeme with
        | .opener _ => skipFrom origin (depth + 1) next
        | .closer k =>
          match depth with
          | 0 => malformed tok.start (.badSyntax k.text)
          | 1 => .ok next
          | d + 2 => skipFrom origin (d + 1) next
        | .sugar _ | .labelDef _ | .boolVector _ | .extension | .dot => skipFrom origin depth next
        | _ => if depth = 0 then .ok next else skipFrom origin depth next := by
  cases h : token? true c with
  | error f => exact skipFrom_of_error h _ _
  | ok r =>
    cases r with
    | none => exact skipFrom_of_none h _ _
    | some t => exact skipFrom_of_token h _ _

/-- The induction is on what is left of the text. -/
theorem skipFrom_follows (origin depth : Nat) {c c' : Cursor} (h : j.At c c') :
    j.Follows j.At (skipFrom origin depth c) (skipFrom (j.before + origin) depth c') := by
  rw [skipFrom_eq, skipFrom_eq]
  refine token?_bind h rfl rfl fun tok next next' htok hnext => ?_
  have further : ∀ depth, j.Follows j.At (skipFrom origin depth next)
      (skipFrom (j.before + origin) depth next') := fun depth =>
    have := token?_shorter htok
    skipFrom_follows origin depth hnext
  dsimp only [token]
  split
  · exact further _
  · split
    · exact malformed_follows _ _
    · exact .ok hnext
    · exact further _
  iterate 5 exact further _
  split
  · exact .ok hnext
  · exact further _
termination_by c.rest.length

theorem skipDatum_follows (h : j.At c c') : j.Follows j.At (skipDatum c) (skipDatum c') := by
  have hskip := skipFrom_follows c.pos 0 h
  rw [skipDatum, skipDatum]
  rw [h.place] at hskip ⊢
  exact hskip

end Joint

/-! All data of a text -/

/-- What a text holds if it has `n` more characters at its start. -/
def Contents.shift (n : Nat) (contents : Contents) : Contents :=
  ⟨contents.forms.map fun form => (form.1, n + form.2), contents.fault.map (Fault.shift n)⟩

/-- Bounds that are larger than the text make no difference. -/
theorem read_bounds {text : List Char} {size bound : Nat} (hs : text.length ≤ size)
    (hb : text.length < bound) : readFrom size bound [] (Cursor.start text) = read text := by
  have hstart : Reached text (Cursor.start text) := .inl (.start text)
  obtain ⟨contents, -, hread⟩ := hstart.concludes []
  obtain ⟨bound, rfl⟩ : ∃ b, bound = b + 1 := ⟨bound - 1, by omega⟩
  exact (hread _ _ hs (Nat.le_of_lt_succ hb)).trans (hread _ _ (Nat.le_refl _) (Nat.le_refl _)).symm

variable {c c' here next : Cursor} {size bound : Nat} {forms out : List (Value × Nat)}

theorem readFrom_refused {f : Text.Numeral.Fault} (hs : skipBlanks c = .error f) :
    readFrom size (bound + 1) forms c = ⟨forms.reverse, some (.numeral f)⟩ := by
  rw [readFrom, hs]

/-- Behind the last form there are only blanks. -/
theorem readFrom_blank (hs : skipBlanks c = .ok here) (hr : here.rest = []) :
    readFrom size (bound + 1) forms c = ⟨forms.reverse, none⟩ := by
  simp [readFrom, hs, hr]

/-- What was read before is kept. -/
theorem readFrom_forms (size bound : Nat) (forms : List (Value × Nat)) (c : Cursor) :
    readFrom size bound forms c =
      ⟨forms.reverse ++ (readFrom size bound [] c).forms, (readFrom size bound [] c).fault⟩ := by
  induction bound generalizing forms c with
  | zero => simp [readFrom]
  | succ bound ih =>
    cases hs : skipBlanks c with
    | error f => simp [readFrom_refused hs]
    | ok here =>
      cases hempty : here.rest.isEmpty with
      | true =>
        have hr : here.rest = [] := List.isEmpty_iff.1 hempty
        simp [readFrom_blank hs hr]
      | false =>
        rw [readFrom_datum hs hempty, readFrom_datum hs hempty]
        split
        · rename_i v next _
          rw [ih ((v, here.pos) :: forms) next, ih [(v, here.pos)] next]
          simp
        · split
          · rw [ih forms]
          · simp
        · simp

/-- Reading a datum takes some of the text. -/
theorem On.datum_shorter {text : List Char} {v : Value} (h : On text c) (hsize : text.length ≤ size)
    (hd : datum size c = .ok (v, next)) : next.rest.length < c.rest.length := by
  obtain ⟨r, hr, hsame⟩ := datum_settles_size h
  have heq := hsame size (by have := h.length_rest; omega)
  exact (hr.of_ok (heq.symm.trans hd)).2

theorem On.skipDatum_shorter {text : List Char} (h : On text c) (hskip : skipDatum c = .ok next) :
    next.rest.length < c.rest.length := by
  have hpassed : EndsIn (Passed text c) (Fault.Founded text true) (skipFrom c.pos 0 c) :=
    skipFrom_ends h.inside (.inl h)
  exact (hpassed.of_ok hskip).2

namespace Joint

variable {j : Joint}

/-- A text with nothing behind it is read as it is alone. -/
theorem readFrom_shifted (hb : j.behind = []) (h : j.At c c') :
    readFrom size bound (forms.map fun form => (form.1, j.before + form.2)) c' =
      (readFrom size bound forms c).shift j.before := by
  induction bound generalizing forms c c' with
  | zero => simp [readFrom, Contents.shift]
  | succ bound ih =>
    cases hs : skipBlanks c with
    | error f =>
      rw [readFrom_refused hs, readFrom_refused (skipBlanks_refused h hb hs)]
      simp [Contents.shift, Fault.shift]
    | ok here =>
      obtain ⟨hhere, hsame, hstays⟩ := skipBlanks_joined h hs
      have hrest : (j.place here).rest = here.rest := rest_of_nil hb here
      cases hempty : here.rest.isEmpty with
      | true =>
        have hr : here.rest = [] := List.isEmpty_iff.1 hempty
        have hs' : skipBlanks c' = .ok (j.place here) := by
          rw [hsame, skipBlanks_nil (hrest.trans hr)]
        rw [readFrom_blank hs hr, readFrom_blank hs' (hrest.trans hr)]
        simp [Contents.shift]
      | false =>
        have hs' : skipBlanks c' = .ok (j.place here) := by
          rw [hsame, hstays (by simpa using hempty)]
        rw [readFrom_datum hs hempty, readFrom_datum hs' (by rw [hrest, hempty])]
        obtain ⟨⟨v, next⟩, ⟨v', next'⟩, hd, hd', hv, hnext⟩ | ⟨f, hd, hd'⟩ :=
          (datum_follows size hhere).cases
        · obtain rfl : v' = v := hv
          rw [hd, hd']
          have hrest : readFrom size bound
              (((v', here.pos) :: forms).map fun form => (form.1, j.before + form.2)) next' = _ :=
                ih hnext
          exact hrest
        · rw [hd, hd' (.inl hb)]
          cases f with
          | unknownExtension pos mark =>
            dsimp only [Fault.shift]
            obtain ⟨next, next', hskip, hskip', hnext⟩ | ⟨f, hskip, hskip'⟩ :=
              (skipDatum_follows hhere).cases
            · rw [hskip, hskip']
              exact ih hnext
            · rw [hskip, hskip' (.inl hb)]
              simp [Contents.shift]
          | malformed pos problem => simp [Contents.shift, Fault.shift]
          | numeral f => simp [Contents.shift, Fault.shift]

/-- Once all of the text has been read, reading goes on behind the line end. -/
theorem readFrom_joined {more : List Char} (rounds : Nat) (hmore : j.behind = '\n' :: more)
    (hstart : j.before = 0) (hsize : j.text.length ≤ size) (h : j.At c c')
    (hread : readFrom size bound forms c = ⟨out, none⟩)
    (hbound : c.rest.length < bound) :
    ∃ left, rounds ≤ left ∧ readFrom size (bound + rounds) forms c' =
      readFrom size left out.reverse ⟨j.text.length + 1, more⟩ := by
  induction bound generalizing forms c c' with
  | zero => exact (Nat.not_lt_zero _ hbound).elim
  | succ bound ih =>
    rw [Nat.add_right_comm]
    cases hs : skipBlanks c with
    | error f =>
      rw [readFrom_refused hs] at hread
      cases hread
    | ok here =>
      obtain ⟨hhere, hsame, hstays⟩ := skipBlanks_joined h hs
      have hlen := skipBlanks_shorter hs
      have hon : On j.text here := hhere.inside.resolve_left (by simp [hmore])
      cases hempty : here.rest.isEmpty with
      | true =>
        have hr : here.rest = [] := List.isEmpty_iff.1 hempty
        have hpos : here.pos = j.text.length := by
          have := hon.length_rest
          have := hon.inside
          simp [hr] at *
          omega
        rw [readFrom_blank hs hr] at hread
        cases hread
        refine ⟨bound + rounds + 1, by omega, ?_⟩
        have hline : (j.place here).rest = '\n' :: more := by rw [hhere.rest, hr, hmore]; rfl
        have hbehind : skipBlanks c' = skipBlanks ⟨j.text.length + 1, more⟩ := by
          rw [hsame, skipBlanks_blank hline (by decide), ← hpos, Cursor.skip, hline]
          simp [Cursor.drop, Joint.place, hstart, hr, hmore]
        rw [List.reverse_reverse, readFrom, readFrom, hbehind]
      | false =>
        have hs' : skipBlanks c' = .ok (j.place here) := by
          rw [hsame, hstays (by simpa using hempty)]
        have hempty' : (j.place here).rest.isEmpty = false := by
          rw [List.isEmpty_eq_false_iff] at hempty ⊢
          rw [hhere.rest]
          exact List.append_ne_nil_of_left_ne_nil hempty _
        have hpos : (j.place here).pos = here.pos := by rw [Joint.place, hstart, Nat.zero_add]
        rw [readFrom_datum hs hempty] at hread
        rw [readFrom_datum hs' hempty', hpos]
        obtain ⟨⟨v, next⟩, ⟨v', next'⟩, hd, hd', hv, hnext⟩ | ⟨f, hd, hd'⟩ :=
          (datum_follows size hhere).cases
        · obtain rfl : v' = v := hv
          rw [hd] at hread
          rw [hd']
          have hshort : next.rest.length < here.rest.length := hon.datum_shorter hsize hd
          exact ih hnext hread (Nat.lt_of_lt_of_le hshort (by omega))
        · rw [hd] at hread
          cases f with
          | unknownExtension pos mark =>
            rw [hd' (.inr rfl)]
            dsimp only [Fault.shift] at hread ⊢
            obtain ⟨next, next', hskip, hskip', hnext⟩ | ⟨f, hskip, hskip'⟩ :=
              (skipDatum_follows hhere).cases
            · rw [hskip] at hread
              rw [hskip']
              have hshort : next.rest.length < here.rest.length := hon.skipDatum_shorter hskip
              exact ih hnext hread (by omega)
            · rw [hskip] at hread
              cases hread
          | malformed pos problem => cases hread
          | numeral f => cases hread

end Joint

variable {first second : List Char}

/-- Where a text that is read to its end, without skip marks and without a `#` at its end,
is followed by a line end and another text, reading gives the data of both, and ends as
reading the second does. -/
theorem read_append (hclosed : Closed first) (hread : (read first).fault = none) :
    (read (first ++ '\n' :: second)).forms =
        (read first).forms ++ ((read second).shift (first.length + 1)).forms ∧
      (read (first ++ '\n' :: second)).fault = ((read second).shift (first.length + 1)).fault := by
  let j : Joint := ⟨first, 0, '\n' :: second, .inr ⟨⟨second, rfl⟩, hclosed⟩⟩
  let k : Joint := ⟨second, first.length + 1, [], .inl rfl⟩
  have hlength : (first ++ '\n' :: second).length = first.length + 1 + second.length := by
    simp
    omega
  have hfirst : readFrom (first ++ '\n' :: second).length (first.length + 1) []
      (Cursor.start first) =
        ⟨(read first).forms, none⟩ := by
    rw [read_bounds (by omega) (by omega), ← hread]
  have hjoined : j.At (Cursor.start first) (Cursor.start (first ++ '\n' :: second)) :=
    ⟨rfl, .inr (.start first)⟩
  have hsize : j.text.length ≤ (first ++ '\n' :: second).length := by
    rw [hlength]
    exact Nat.le_add_right_of_le (Nat.le_succ _)
  obtain ⟨left, hleft, hrun⟩ :=
    Joint.readFrom_joined (second.length + 1) rfl rfl hsize hjoined hfirst (Nat.lt_succ_self _)
  have hsecond : k.At (Cursor.start second) ⟨first.length + 1, second⟩ :=
    ⟨by simp [Joint.place, Cursor.start, k], .inl rfl⟩
  have hshifted : readFrom (first ++ '\n' :: second).length left [] ⟨first.length + 1, second⟩ =
      (read second).shift (first.length + 1) := by
    have hsize : second.length ≤ (first ++ '\n' :: second).length := by omega
    rw [← read_bounds hsize hleft]
    have hnil : readFrom (first ++ '\n' :: second).length left
        (([] : List (Value × Nat)).map fun form => (form.1, k.before + form.2))
        ⟨first.length + 1, second⟩ = _ := Joint.readFrom_shifted rfl hsecond
    exact hnil
  have hread' : read (first ++ '\n' :: second) = readFrom (first ++ '\n' :: second).length left
      (read first).forms.reverse ⟨first.length + 1, second⟩ := by
    rw [read, hlength, ← hlength, ← hrun]
    congr 1
    omega
  rw [hread', readFrom_forms, hshifted, List.reverse_reverse]
  exact ⟨rfl, rfl⟩

theorem read_letter {x : Char} (hx : x ∈ ['x', 'y']) :
    read [x] = ⟨[(.sym (String.singleton x), 0)], none⟩ := by
  have hskip : skipBlanks ⟨0, [x]⟩ = .ok ⟨0, [x]⟩ := by
    simp only [List.mem_cons, List.not_mem_nil, or_false] at hx
    rcases hx with rfl | rfl <;> exact skipBlanks_of_solid (by decide) (by decide) (by decide)
  have hlexeme : lexeme false ⟨0, [x]⟩ x = .ok (.atom (String.singleton x) false, ⟨1, []⟩) := by
    simp only [List.mem_cons, List.not_mem_nil, or_false] at hx
    rcases hx with rfl | rfl <;> decide
  have hvalue : atomValue (String.singleton x) false = .ok (.sym (String.singleton x)) := by
    simp only [List.mem_cons, List.not_mem_nil, or_false] at hx
    rcases hx with rfl | rfl <;> rfl
  have hdatum : datum 1 ⟨0, [x]⟩ = .ok (.sym (String.singleton x), ⟨1, []⟩) := by
    simp [datum, nextToken, token?_of_lexeme hskip rfl hlexeme, datumFrom, hvalue, Except.map, bind,
      Except.bind, pure, Except.pure]
  rw [read, List.length_singleton, Cursor.start, readFrom_datum hskip rfl, hdatum]
  exact readFrom_blank (skipBlanks_nil rfl) rfl

theorem read_append_letters :
    Closed ['x'] ∧ (read ['x']).fault = none ∧
      (read ['x', '\n', 'y']).forms = [(.sym "x", 0), (.sym "y", 2)] ∧
      (read ['x', '\n', 'y']).fault = none := by
  have hclosed : Closed ['x'] := ⟨by decide, by decide⟩
  have hx : read ['x'] = ⟨[(.sym "x", 0)], none⟩ := read_letter (by decide)
  have hy : read ['y'] = ⟨[(.sym "y", 0)], none⟩ := read_letter (by decide)
  have hfault : (read ['x']).fault = none := by rw [hx]
  obtain ⟨hforms, hend⟩ :
      (read ['x', '\n', 'y']).forms = (read ['x']).forms ++ ((read ['y']).shift 2).forms ∧
        (read ['x', '\n', 'y']).fault = ((read ['y']).shift 2).fault := read_append hclosed hfault
  rw [hx, hy] at hforms
  rw [hy] at hend
  exact ⟨hclosed, hfault, hforms, hend⟩

end PatternLint.Reader
