import Mathlib.Data.List.Chain
import PatternLint.Proofs.LexingFaults

/-! Tokens lie in the text, one behind the other, with nothing but blanks between them. A `#` that
is all that is left of the text is the only one that takes more than the text has. -/

namespace PatternLint.Reader

variable {text tail : List Char} {c here next : Cursor} {tolerant : Bool} {tok : Token} {l : Lexeme}
  {x : Char}

/-- All tokens from a place on, up to the end of the text or a fault. -/
def tokens (tolerant : Bool) (c : Cursor) : List Token :=
  match _h : token? tolerant c with
  | .ok (some (tok, next)) => tok :: tokens tolerant next
  | _ => []
termination_by c.rest.length
decreasing_by exact token?_shorter _h

/-- All that is left is a `#`. -/
def Cursor.atLoneHash (c : Cursor) : Prop :=
  c.rest = ['#']

/-- It is taken for a symbol without a name, and its mark for one of two characters. -/
theorem lexeme_loneHash (h : here.atLoneHash) :
    lexeme tolerant here '#' = .ok (.atom "" true, ⟨here.pos + 2, []⟩) := by
  obtain ⟨pos, rest⟩ := here
  obtain rfl : rest = ['#'] := h
  rfl

theorem singleLexeme?_ne_atom {name : String} {escaped : Bool} (h : singleLexeme? x = some l) :
    l ≠ .atom name escaped := by
  unfold singleLexeme? at h
  repeat' split at h
  all_goals cases h
  all_goals exact nofun

theorem atomAt_on {name : String} {escaped : Bool} (hc : On text c)
    (h : atomAt c = .ok (name, escaped, next)) : On text next := by
  have hscan : EndsIn (fun r => On text r.2.2) (Fault.Founded text true) (atomAt c) :=
    scanAtom_ends hc
  exact hscan.of_ok h

theorem hashLexeme_on {y : Char} (hc : On text c) (hr : c.rest = '#' :: y :: tail)
    (h : hashLexeme tolerant c = .ok (l, next)) : On text next := by
  have hends : EndsIn (Taken text) (Fault.Founded text tolerant) (hashLexeme tolerant c) :=
    hashLexeme_ends hc (by rw [hr]; rfl)
  obtain hon | ⟨hname, -⟩ := (hends.of_ok h).2
  · exact hon
  -- Only a mark and a symbol are taken for a symbol.
  unfold hashLexeme at h
  split at h
  · rename_i hfix
    cases h
    obtain ⟨m, hm, heq⟩ := Option.map_eq_some_iff.1 hfix
    obtain ⟨-, rfl⟩ := Prod.mk.inj heq
    exact hc.dropText (by simpa using List.find?_some hm)
  dsimp only at h hname
  split at h
  · unfold bareSymbol at h
    split at h
    · cases h
    · rename_i hatom
      cases h
      exact atomAt_on (hc.drop (by simp [hr])) hatom
  split at h
  · cases h
    cases hname
  split at h
  · unfold labelLexeme at h
    split at h <;> cases h
    split at hname <;> cases hname
  split at h
  · rename_i hradix
    obtain ⟨n, rfl⟩ := radixNumber?_number (h ▸ hradix)
    cases hname
  · split at h <;> cases h
    cases hname

/-- Behind every other token there is a place of the text. -/
theorem lexeme_on (hc : On text c) (hr : c.rest = x :: tail) (hlone : ¬ c.atLoneHash)
    (h : lexeme tolerant c x = .ok (l, next)) : On text next := by
  have hends : EndsIn (Taken text) (Fault.Founded text tolerant) (lexeme tolerant c x) :=
    lexeme_ends hc hr
  obtain hon | ⟨hname, -⟩ := (hends.of_ok h).2
  · exact hon
  dsimp only at hname
  unfold lexeme at h
  split at h
  · rename_i hsingle
    cases h
    exact (singleLexeme?_ne_atom hsingle hname).elim
  split at h
  · have h := Except.ok.inj h
    unfold commaLexeme at h
    split at h <;> cases h <;> cases hname
  split at h
  · unfold stringLexeme at h
    split at h <;> cases h
    cases hname
  split at h
  · unfold charLexeme at h
    split at h
    · cases h
    · split at h <;> cases h
      cases hname
  split at h
  · rename_i hhash
    obtain rfl := beq_iff_eq.1 hhash
    obtain _ | ⟨y, tail⟩ := tail
    · exact (hlone hr).elim
    · exact hashLexeme_on hc hr h
  · unfold atomLexeme at h
    split at h
    · cases h
    · rename_i hatom
      cases h
      exact atomAt_on hc hatom

/-- A token that is taken at `c`, with the place behind it. -/
structure Token.Placed (text : List Char) (c : Cursor) (tok : Token) (next : Cursor) : Prop where
  blanks : skipBlanks c = .ok (Cursor.of text tok.start)
  after : c.pos ≤ tok.start
  nonempty : tok.start < tok.stop
  stop_eq : tok.stop = next.pos
  behind : On text next ∧ text.drop tok.start ≠ ['#'] ∨
    text.drop tok.start = ['#'] ∧ tok.stop = text.length + 1 ∧ next.rest = []

/-- A token takes characters behind the place where it is looked for. -/
theorem token?_extent (h : token? tolerant c = .ok (some (tok, next))) :
    c.pos ≤ tok.start ∧ tok.start < tok.stop ∧ tok.stop = next.pos := by
  obtain ⟨here, x, tail, hs, hr, hl, htok⟩ := token?_eq_some h
  obtain ⟨n, hn⟩ := skipBlanks_leads hs
  obtain ⟨m, hm⟩ := lexeme_leads hl
  have hshort : next.rest.length < here.rest.length := lexeme_shorter hr (skipBlanks_head hs hr) hl
  have hpositive : 0 < m := by
    rw [hm, Cursor.length_drop] at hshort
    omega
  have hstart : tok.start = here.pos := by rw [htok]
  have hstop : tok.stop = next.pos := by rw [htok]
  refine ⟨?_, ?_, hstop⟩
  · rw [hstart, hn]
    exact Nat.le_add_right _ _
  · rw [hstart, hstop, hm]
    exact Nat.lt_add_of_pos_right hpositive

theorem token?_placed (hc : On text c) (h : token? tolerant c = .ok (some (tok, next))) :
    tok.Placed text c next := by
  obtain ⟨hafter, hnonempty, hstop⟩ := token?_extent h
  obtain ⟨here, x, tail, hs, hr, hl, htok⟩ := token?_eq_some h
  have hon : On text here := (skipBlanks_ends hc).of_ok hs
  have hstart : tok.start = here.pos := by rw [htok]
  have hrest : text.drop tok.start = here.rest := by rw [hstart, hon.rest]
  refine ⟨by rw [hstart, hon.eq_of, hs], hafter, hnonempty, hstop, ?_⟩
  rw [hrest]
  by_cases hlone : here.atLoneHash
  · right
    have hlength := hon.length_rest
    rw [Cursor.atLoneHash] at hlone
    obtain rfl : x = '#' := by
      rw [hlone] at hr
      exact (List.cons.inj hr).1.symm
    rw [lexeme_loneHash hlone] at hl
    obtain ⟨-, rfl⟩ := Prod.mk.inj (Except.ok.inj hl)
    refine ⟨hlone, ?_, rfl⟩
    rw [hlone, List.length_singleton] at hlength
    rw [hstop]
    simp only
    omega
  · exact .inl ⟨lexeme_on hon hr hlone hl, hlone⟩

/-- A token is behind the one before if there are only blanks between them. -/
def Token.Succeeds (text : List Char) (a b : Token) : Prop :=
  a.stop ≤ b.start ∧ skipBlanks (Cursor.of text a.stop) = .ok (Cursor.of text b.start)

theorem tokens_of_token (h : token? tolerant c = .ok (some (tok, next))) :
    tokens tolerant c = tok :: tokens tolerant next := by
  rw [tokens]
  split
  · rename_i h'
    rw [h] at h'
    cases h'
    rfl
  · rename_i hne
    exact (hne _ _ h).elim

theorem tokens_end (h : c.rest = []) : tokens tolerant c = [] := by
  have hs : skipBlanks c = .ok c := by
    rw [skipBlanks]
    split <;> simp_all
  have hnone : token? tolerant c = .ok none := by
    simp only [token?, hs, h]
  rw [tokens]
  split <;> simp_all

/-- The first token at a place comes behind blanks. -/
theorem head_tokens (hc : On text c) (h : tok ∈ (tokens tolerant c).head?) :
    c.pos ≤ tok.start ∧ skipBlanks c = .ok (Cursor.of text tok.start) := by
  rw [tokens] at h
  split at h
  · rename_i first next hfirst
    obtain rfl : first = tok := by simpa using h
    have hplaced := token?_placed hc hfirst
    exact ⟨hplaced.after, hplaced.blanks⟩
  · cases h

theorem tokens_chain (hc : On text c) : (tokens tolerant c).IsChain (Token.Succeeds text) := by
  fun_induction tokens tolerant c with
  | case1 c tok next htok ih =>
    have hplaced := token?_placed hc htok
    obtain ⟨hon, -⟩ | ⟨-, -, hend⟩ := hplaced.behind
    · refine List.isChain_cons.mpr ⟨fun b hb => ?_, ih hon⟩
      obtain ⟨hafter, hblanks⟩ := head_tokens hon hb
      rw [Token.Succeeds, hplaced.stop_eq, hon.eq_of]
      exact ⟨hafter, hblanks⟩
    · rw [tokens_end hend]
      exact List.isChain_singleton _
  | case2 => exact List.isChain_nil

theorem tokens_placed (hc : On text c) : ∀ tok ∈ tokens tolerant c,
    c.pos ≤ tok.start ∧ tok.start < tok.stop ∧
      (text.drop tok.start ≠ ['#'] ∧ tok.stop ≤ text.length ∨
        text.drop tok.start = ['#'] ∧ tok.stop = text.length + 1) := by
  fun_induction tokens tolerant c with
  | case1 c tok next htok ih =>
    have hplaced := token?_placed hc htok
    intro b hb
    rcases List.mem_cons.mp hb with rfl | hb
    · refine ⟨hplaced.after, hplaced.nonempty, ?_⟩
      obtain ⟨hon, hne⟩ | ⟨hlone, hstop, -⟩ := hplaced.behind
      · exact .inl ⟨hne, hplaced.stop_eq ▸ hon.inside⟩
      · exact .inr ⟨hlone, hstop⟩
    · obtain ⟨hon, -⟩ | ⟨-, -, hend⟩ := hplaced.behind
      · obtain ⟨hafter, hrest⟩ := ih hon b hb
        have := hplaced.after
        have := hplaced.nonempty
        have := hplaced.stop_eq
        exact ⟨by omega, hrest⟩
      · rw [tokens_end hend] at hb
        cases hb
  | case2 => exact List.forall_mem_nil _

/-- Wherever tokens are taken from, and whether unknown extensions of the syntax are tolerated
or not, the tokens are not empty and follow one behind the other with nothing but blanks
between them. Each ends in the text, but for a `#` that is all that is left, which ends one
character behind the text. -/
theorem tokens_lie (text : List Char) (pos : Nat) (tolerant : Bool) :
    (∀ tok ∈ tokens tolerant (Cursor.of text pos), pos ≤ tok.start ∧ tok.start < tok.stop ∧
      (text.drop tok.start ≠ ['#'] ∧ tok.stop ≤ text.length ∨
        text.drop tok.start = ['#'] ∧ tok.stop = text.length + 1)) ∧
    (∀ tok ∈ (tokens tolerant (Cursor.of text pos)).head?,
      skipBlanks (Cursor.of text pos) = .ok (Cursor.of text tok.start)) ∧
    (tokens tolerant (Cursor.of text pos)).IsChain (Token.Succeeds text) := by
  by_cases hpos : pos ≤ text.length
  · have hon : On text (Cursor.of text pos) := ⟨hpos, rfl⟩
    exact ⟨tokens_placed hon, fun tok htok => (head_tokens hon htok).2, tokens_chain hon⟩
  · have hend : (Cursor.of text pos).rest = [] := List.drop_eq_nil_of_le (Nat.le_of_not_le hpos)
    rw [tokens_end hend]
    exact ⟨List.forall_mem_nil _, nofun, List.isChain_nil⟩

/-- The mark at the end of a text is taken together with a character behind the text. -/
theorem loneHash_beyond :
    ¬ ∀ (text : List Char) (pos : Nat) (tolerant : Bool), pos ≤ text.length →
      ∀ tok ∈ tokens tolerant (Cursor.of text pos), tok.stop ≤ text.length := by
  intro h
  have hblanks : skipBlanks (Cursor.of ['#'] 0) = .ok (Cursor.of ['#'] 0) := by
    rw [skipBlanks]
    rfl
  have htok : token? true (Cursor.of ['#'] 0) = .ok (some (⟨.atom "" true, 0, 2⟩, ⟨2, []⟩)) :=
    token?_of_lexeme hblanks rfl (lexeme_loneHash rfl)
  have hinside := h ['#'] 0 true (Nat.zero_le _) ⟨.atom "" true, 0, 2⟩
    (by rw [tokens_of_token htok]; exact List.mem_cons_self)
  exact absurd hinside (by decide)

end PatternLint.Reader
