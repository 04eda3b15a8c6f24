import Mathlib.Data.List.Find
import PatternLint.Proofs.LexingFaults

/-! Tokens of a text are found again where the text stands in a longer one. Behind the
text there is nothing, or a line end with more; then what is taken from the text must not
depend on where it ends. -/

namespace PatternLint.Reader

/-- A text without skip marks, and without a `#` that what comes next would add to. -/
def Closed (text : List Char) : Prop :=
  ¬ ['#', '@'] <:+: text ∧ text.getLast? ≠ some '#'

/-- A text in a longer one, `before` characters from its start and with `behind` after it. -/
structure Joint where
  text : List Char
  before : Nat
  behind : List Char
  joined : behind = [] ∨ (∃ more, behind = '\n' :: more) ∧ Closed text

def Fault.isExtension : Fault → Bool
  | .unknownExtension _ _ => true
  | _ => false

/-- The same fault of a text that has `n` more characters at its start. -/
def Fault.shift (n : Nat) : Fault → Fault
  | .malformed pos problem => .malformed (n + pos) problem
  | .unknownExtension pos mark => .unknownExtension (n + pos) mark
  | .numeral f => .numeral f

namespace Joint

variable (j : Joint)

/-- Where a place of the text is in the longer one. -/
def place (c : Cursor) : Cursor :=
  ⟨j.before + c.pos, c.rest ++ j.behind⟩

def token (t : Token) : Token :=
  ⟨t.lexeme, j.before + t.start, j.before + t.stop⟩

/-- A place, and where it is in the longer text. If anything is behind the text, it
is a place of the text. -/
structure At (c c' : Cursor) : Prop where
  place : c' = j.place c
  inside : j.behind = [] ∨ On j.text c

/-- Results with the places behind them. -/
def Alike {α : Type} (r r' : α × Cursor) : Prop :=
  r'.1 = r.1 ∧ j.At r.2 r'.2

/-- Results of two parts with the places behind them. -/
def AlikeTwo {α β : Type} (r r' : α × β × Cursor) : Prop :=
  r'.1 = r.1 ∧ j.Alike r.2 r'.2

variable {j}

/-- The second of two readings gives what the first gives. Faults need not agree if something is
behind the text, but for unknown extensions of the syntax. -/
def Follows {α β : Type} (j : Joint) (A : α → β → Prop) (x : Except Fault α) (y : Except Fault β) :
    Prop :=
  match x with
  | .ok a => ∃ b, y = .ok b ∧ A a b
  | .error f => j.behind = [] ∨ f.isExtension → y = .error (f.shift j.before)

variable {α β γ δ : Type} {A : α → β → Prop} {B : γ → δ → Prop} {c c' d d' origin origin' : Cursor}
  {n : Nat} {p : Char → Bool}

namespace Follows

theorem ok {a : α} {b : β} (h : A a b) : j.Follows A (.ok a) (.ok b) :=
  ⟨b, rfl, h⟩

theorem error (f : Fault) : j.Follows A (.error f) (.error (f.shift j.before)) :=
  fun _ => rfl

/-- A problem of the text is one of the longer text, at the same place of it. -/
theorem fail (h : j.At c c') (problem : Problem) :
    j.Follows A (c.fail problem) (c'.fail problem) := by
  intro _
  rw [h.place]
  rfl

/-- Where more text could help, the readings need to agree only if there is none. -/
theorem open_end {f : Fault} {y : Except Fault β} (hf : f.isExtension = false)
    (h : j.behind = [] → y = .error (f.shift j.before)) : j.Follows A (.error f) y :=
  fun h' => h (h'.resolve_right (by simp [hf]))

theorem bind {x : Except Fault α} {y : Except Fault β} {k : α → Except Fault γ}
    {k' : β → Except Fault δ} (h : j.Follows A x y) (hk : ∀ a b, A a b → j.Follows B (k a) (k' b)) :
    j.Follows B (x >>= k) (y >>= k') := by
  cases x with
  | ok a =>
    obtain ⟨b, rfl, hab⟩ := h
    exact hk a b hab
  | error f =>
    intro hf
    rw [h hf]
    rfl

/-- Two readings that agree both have results, or the first has none. -/
theorem cases {x : Except Fault α} {y : Except Fault β} (h : j.Follows A x y) :
    (∃ a b, x = .ok a ∧ y = .ok b ∧ A a b) ∨
      ∃ f, x = .error f ∧ (j.behind = [] ∨ f.isExtension → y = .error (f.shift j.before)) := by
  cases x with
  | ok a =>
    obtain ⟨b, rfl, hab⟩ := h
    exact .inl ⟨a, b, rfl, rfl, hab⟩
  | error f => exact .inr ⟨f, rfl, h⟩

end Follows

/-! What does not change -/

theorem rest_of_nil (h : j.behind = []) (c : Cursor) : (j.place c).rest = c.rest := by
  simp [place, h]

/-- What stands behind the text starts with the end of a line. -/
theorem behind_cases (j : Joint) : j.behind = [] ∨ ∃ more, j.behind = '\n' :: more :=
  j.joined.imp id And.left

/-- A run of characters that does not go over the end of a line stays as it is. -/
theorem takeWhile (j : Joint) (hp : p '\n' = false) (cs : List Char) :
    (cs ++ j.behind).takeWhile p = cs.takeWhile p := by
  induction cs with
  | nil => obtain h | ⟨more, h⟩ := j.behind_cases <;> simp [h, hp]
  | cons x cs ih => simp only [List.cons_append, List.takeWhile_cons, ih]

theorem takeWhile_take (j : Joint) (hp : p '\n' = false) (cs : List Char) (n : Nat) :
    ((cs ++ j.behind).take n).takeWhile p = (cs.take n).takeWhile p := by
  induction n generalizing cs with
  | zero => rfl
  | succ n ih =>
    cases cs with
    | nil => obtain h | ⟨more, h⟩ := j.behind_cases <;> simp [h, hp]
    | cons x cs => simp only [List.cons_append, List.take_succ_cons, List.takeWhile_cons, ih]

/-- A mark without the end of a line is not completed by what stands behind. -/
theorem isPrefixOf (j : Joint) {mark : List Char} (hm : '\n' ∉ mark) (cs : List Char) :
    mark.isPrefixOf (cs ++ j.behind) = mark.isPrefixOf cs := by
  induction mark generalizing cs with
  | nil => simp
  | cons m mark ih =>
    simp only [List.mem_cons, not_or] at hm
    cases cs with
    | nil => obtain h | ⟨more, h⟩ := j.behind_cases <;> simp [h, List.isPrefixOf, Ne.symm hm.1]
    | cons x cs => simp only [List.cons_append, List.isPrefixOf, ih hm.2]

theorem startsWith (j : Joint) {mark : String} (hm : '\n' ∉ mark.toList) (c : Cursor) :
    (j.place c).startsWith mark = c.startsWith mark :=
  j.isPrefixOf hm c.rest

theorem At.startsWith (h : j.At c c') {mark : String} (hm : '\n' ∉ mark.toList) :
    c'.startsWith mark = c.startsWith mark := by
  rw [h.place]
  exact j.startsWith hm c

/-- Characters that the text has are not taken from behind it. -/
theorem take_of_le (j : Joint) {cs : List Char} (h : j.behind = [] ∨ n ≤ cs.length) :
    (cs ++ j.behind).take n = cs.take n := by
  rcases h with h | h
  · rw [h, List.append_nil]
  · exact List.take_append_of_le_length h

theorem drop_of_le (j : Joint) {cs : List Char} (h : j.behind = [] ∨ n ≤ cs.length) :
    (cs ++ j.behind).drop n = cs.drop n ++ j.behind := by
  rcases h with h | h
  · rw [h, List.append_nil, List.append_nil]
  · exact List.drop_append_of_le_length h

/-- Steps within the text. -/
theorem At.drop (h : j.At c c') (hn : j.behind = [] ∨ n ≤ c.rest.length) :
    j.At (c.drop n) (c'.drop n) where
  place := by
    rw [h.place]
    simp only [Cursor.drop, Joint.place, j.drop_of_le hn, Nat.add_assoc]
  inside := by
    rcases hn with hn | hn
    · exact .inl hn
    · exact h.inside.imp id fun h => h.drop hn

theorem At.dropText (h : j.At c c') {mark : String} (hm : c.startsWith mark) :
    j.At (c.drop mark.length) (c'.drop mark.length) :=
  h.drop (.inr (String.length_toList (s := mark) ▸ (List.isPrefixOf_iff_prefix.1 hm).length_le))

theorem At.rest (h : j.At c c') : c'.rest = c.rest ++ j.behind := by
  rw [h.place]
  rfl

theorem At.refl (h : j.behind = [] ∨ On j.text c) : j.At c (j.place c) :=
  ⟨rfl, h⟩

/-! Escapes -/

/-- A mark that the text has is found in it, not further on. -/
theorem find?_eq_some {needle cs : List Char} (hm : '\n' ∉ needle) {n : Nat}
    (h : Text.find? needle cs = some n) : Text.find? needle (cs ++ j.behind) = some n := by
  rw [Text.find?] at h ⊢
  generalize 0 = pos at h ⊢
  induction cs generalizing pos with
  | nil =>
    obtain ⟨rfl, rfl⟩ : needle = [] ∧ pos = n := by simpa [Text.findFrom] using h
    cases j.behind <;> simp [Text.findFrom]
  | cons x cs ih =>
    rw [List.cons_append, Text.findFrom, ← List.cons_append, j.isPrefixOf hm]
    rw [Text.findFrom] at h
    split
    · rwa [if_pos ‹_›] at h
    · rw [if_neg ‹_›] at h
      exact ih (pos + 1) h

/-- What was found is found again; where nothing is behind the text, nothing else is found. -/
def Finds (j : Joint) (A : α → β → Prop) (x : Option α) (y : Option β) : Prop :=
  match x with
  | some a => ∃ b, y = some b ∧ A a b
  | none => j.behind = [] → y = none

/-- A closing brace may only turn up behind the text, so nothing is said without one. -/
theorem braced?_finds (h : j.At c c') : j.Finds j.Alike (braced? c) (braced? c') := by
  unfold braced?
  rw [h.rest]
  cases hfind : Text.find? ['\x7d'] c.rest with
  | some n =>
    have hn : n + 1 ≤ c.rest.length := by
      obtain ⟨-, hprefix⟩ := Text.find?_some hfind
      have := (List.isPrefixOf_iff_prefix.1 hprefix).length_le
      simp at this
      omega
    refine ⟨_, by rw [find?_eq_some (by decide) hfind], ?_, h.drop (.inr hn)⟩
    exact j.take_of_le (.inr (Nat.le_of_succ_le hn))
  | none =>
    intro hbehind
    rw [hbehind, List.append_nil, hfind]

theorem hexDigits?_finds (h : j.At c c') : j.Finds j.Alike (hexDigits? c) (hexDigits? c') := by
  unfold hexDigits?
  rw [h.startsWith (by decide), h.rest, j.takeWhile (by decide)]
  split
  · rename_i hbrace
    exact braced?_finds (h.dropText hbrace)
  · exact ⟨_, rfl, rfl, h.drop (.inr (List.takeWhile_prefix _).length_le)⟩

/-- The value of digits does not depend on where they stand. -/
theorem readNumeral_follows {base : Nat} {digits : List Char} (h : j.At c c') :
    j.Follows j.Alike ((readNumeral base digits).map (·, c))
      ((readNumeral base digits).map (·, c')) := by
  rw [readNumeral]
  cases Text.Numeral.read base digits with
  | ok n => exact .ok ⟨rfl, h⟩
  | error f => exact .error _

/-- A code in braces, or as many hexadecimal digits as there are. -/
theorem hexEscape_follows (ho : j.At origin origin') (h : j.At c c') :
    j.Follows j.Alike (hexEscape origin c) (hexEscape origin' c') := by
  have hdigits := hexDigits?_finds h
  unfold hexEscape
  cases hd : hexDigits? c with
  | none =>
    rw [hd] at hdigits
    refine .open_end rfl fun hbehind => ?_
    rw [hdigits hbehind, ho.place]
    rfl
  | some r =>
    rw [hd] at hdigits
    obtain ⟨⟨digits, next'⟩, heq, hsame, hnext⟩ := hdigits
    rw [heq]
    obtain rfl : digits = r.1 := hsame
    obtain ⟨_ | ⟨x, digits⟩, next⟩ := r
    · exact .fail ho _
    · exact readNumeral_follows hnext

/-- A code of a fixed width that the end of the text cuts short may go on behind it. -/
theorem unicodeEscape_follows (ho : j.At origin origin') (h : j.At c c') (width : Nat) :
    j.Follows j.Alike (unicodeEscape origin c width) (unicodeEscape origin' c' width) := by
  unfold unicodeEscape
  rw [h.rest]
  split
  · rename_i hdigits
    have hwidth : width ≤ c.rest.length := by
      rw [← hdigits.1]
      exact List.length_take_le' _ _
    rw [j.take_of_le (.inr hwidth), if_pos hdigits]
    exact readNumeral_follows (h.drop (.inr hwidth))
  · rename_i hdigits
    refine .open_end rfl fun hbehind => ?_
    rw [hbehind, List.append_nil, if_neg hdigits, ho.place]
    rfl

theorem nameEscape_follows (ho : j.At origin origin') (h : j.At c c') :
    j.Follows j.Alike (nameEscape origin c) (nameEscape origin' c') := by
  have hname := braced?_finds h
  unfold nameEscape
  cases hn : braced? c with
  | none =>
    rw [hn] at hname
    refine .open_end rfl fun hbehind => ?_
    rw [hname hbehind, ho.place]
    rfl
  | some r =>
    rw [hn] at hname
    obtain ⟨⟨name, next'⟩, heq, hsame, hnext⟩ := hname
    rw [heq]
    obtain rfl : name = r.1 := hsame
    dsimp only
    cases namedCode? r.1 with
    | some code => exact .ok ⟨rfl, hnext⟩
    | none => exact .fail ho _

theorem codeEscape_follows (ho : j.At origin origin') (h : j.At c c') (key : Char) :
    j.Follows j.Alike (codeEscape origin key c) (codeEscape origin' key c') := by
  unfold codeEscape
  rw [h.startsWith (by decide)]
  split
  · exact .ok ⟨rfl, h⟩
  split
  · exact .ok ⟨rfl, h⟩
  split
  · exact hexEscape_follows ho h
  split
  · unfold octalEscape
    rw [h.rest, j.takeWhile_take (by decide)]
    refine .ok ⟨rfl, h.drop (.inr ?_)⟩
    exact Nat.le_trans (List.takeWhile_prefix _).length_le (List.length_take_le' _ _)
  split
  · exact unicodeEscape_follows ho h 4
  split
  · exact unicodeEscape_follows ho h 8
  split
  · rename_i hname
    exact nameEscape_follows ho (h.dropText (Bool.and_eq_true_iff.1 hname).2)
  · exact .ok ⟨rfl, h⟩

/-- A modifier is a key and a hyphen, and the hyphen is not the end of a line. -/
theorem modifier?_joined (inString : Bool) (key : Char) (h : j.At c c') :
    Option.Rel j.Alike (modifier? inString key c) (modifier? inString key c') := by
  unfold modifier?
  rw [h.startsWith (by decide)]
  split
  · split
    · rename_i hdash
      exact .some ⟨rfl, h.dropText hdash⟩
    · exact .none
  · split
    · exact .some ⟨rfl, h⟩
    · exact .none

/-- Reading a character by what stands behind its backslash. -/
theorem character_backslash {inString : Bool} {c : Cursor} {key : Char} {tail : List Char}
    (hr : c.rest = '\\' :: key :: tail) :
    character inString c =
      if inString && (key == '\n' || key == ' ') then .ok (none, c.drop 2)
      else if inString && key == 's' then .ok (some 32, c.drop 2)
      else match modifier? inString key (c.drop 2) with
        | some (f, body) =>
          match character inString body with
          | .error fault => .error fault
          | .ok (none, _) => c.fail .modifiedNothing
          | .ok (some code, next) => .ok (some (f code), next)
        | none =>
          match codeEscape c key (c.drop 2) with
          | .error fault => .error fault
          | .ok (code, next) => .ok (some code, next) := by
  rw [character]
  split
  · simp_all
  · simp_all
  · rename_i hr'
    rw [hr] at hr'
    obtain ⟨rfl, rfl⟩ : key = _ ∧ tail = _ := by simpa using hr'
    congr 2
    split <;> rename_i hm <;> rewrite [hm] <;> rfl
  · rename_i hne hr'
    rw [hr] at hr'
    exact (hne key tail (List.cons.inj hr').1.symm (List.cons.inj hr').2.symm).elim

theorem character_plain {inString : Bool} {c : Cursor} {x : Char} {tail : List Char}
    (hr : c.rest = x :: tail) (hx : x ≠ '\\') :
    character inString c = .ok (some x.toNat, c.drop 1) := by
  rw [character]
  split
  · simp_all
  · rename_i hr'
    exact (hx (List.cons.inj (hr.symm.trans hr')).1).elim
  · rename_i hr'
    exact (hx (List.cons.inj (hr.symm.trans hr')).1).elim
  · rename_i hr'
    rw [(List.cons.inj (hr.symm.trans hr')).1]

/-- A place where the text ends too early. -/
theorem character_short {inString : Bool} {c : Cursor} (hr : c.rest = [] ∨ c.rest = ['\\']) :
    character inString c = c.fail .endOfFile := by
  rw [character]
  rcases hr with hr | hr <;> split <;> simp_all

/-- One escape, if what follows it is read alike; the keys are gone through in the order of the
reader. -/
theorem character_escaped_follows {inString : Bool} {key : Char} {tail : List Char} {c c' : Cursor}
    (h : j.At c c') (hr : c.rest = '\\' :: key :: tail)
    (ih : ∀ body body', j.At body body' → body.rest.length < c.rest.length →
      j.Follows j.Alike (character inString body) (character inString body')) :
    j.Follows j.Alike (character inString c) (character inString c') := by
  have hr' : c'.rest = '\\' :: key :: (tail ++ j.behind) := by rw [h.rest, hr]; rfl
  have hnext : j.At (c.drop 2) (c'.drop 2) := h.drop (.inr (by simp [hr]))
  rw [character_backslash hr, character_backslash hr']
  split
  · exact .ok ⟨rfl, hnext⟩
  split
  · exact .ok ⟨rfl, hnext⟩
  obtain ⟨m, hm⟩ : ∃ m, modifier? inString key (c.drop 2) = m := ⟨_, rfl⟩
  obtain ⟨m', hm'⟩ : ∃ m', modifier? inString key (c'.drop 2) = m' := ⟨_, rfl⟩
  have hmodifier := modifier?_joined inString key hnext
  rw [hm, hm'] at hmodifier ⊢
  cases hmodifier with
  | none =>
    obtain ⟨r, r', hcode, hcode', hsame⟩ | ⟨fault, hcode, hcode'⟩ :=
      (codeEscape_follows h hnext key).cases
    · simp only [hcode, hcode']
      exact .ok ⟨by rw [hsame.1], hsame.2⟩
    · simp only [hcode]
      intro hf
      rw [hcode' hf]
  | @some r r' hbody =>
    obtain ⟨f, body⟩ := r
    obtain ⟨f', body'⟩ := r'
    obtain ⟨hf, hbody⟩ := hbody
    obtain rfl : f' = f := hf
    have hshort : body.rest.length < c.rest.length := by
      have := modifier?_shorter hm
      simp [Cursor.drop, hr] at this ⊢
      omega
    obtain ⟨⟨code?, next⟩, ⟨code?', next'⟩, hcode, hcode', hsame, hnext⟩ | ⟨fault, hcode, hcode'⟩ :=
      (ih body body' hbody hshort).cases
    · obtain rfl : code?' = code? := hsame
      simp only [hcode, hcode']
      cases code?' with
      | none => exact .fail h _
      | some code => exact .ok ⟨rfl, hnext⟩
    · simp only [hcode]
      intro hf
      rw [hcode' hf]

/-- Modifiers nest, so that the induction is on how much of the text is left. -/
theorem character_follows (inString : Bool) {c c' : Cursor} (h : j.At c c') :
    j.Follows j.Alike (character inString c) (character inString c') := by
  have short : c.rest = [] ∨ c.rest = ['\\'] →
      j.Follows j.Alike (character inString c) (character inString c') := by
    intro hr
    rw [character_short hr]
    refine .open_end rfl fun hbehind => ?_
    rw [h.place, character_short (by rwa [rest_of_nil hbehind])]
    rfl
  cases hr : c.rest with
  | nil => exact short (.inl hr)
  | cons x tail =>
    by_cases hx : x = '\\'
    · subst hx
      cases tail with
      | nil => exact short (.inr hr)
      | cons key tail =>
        exact character_escaped_follows h hr fun body body' hbody _ =>
          character_follows inString hbody
    · have hr' : c'.rest = x :: (tail ++ j.behind) := by rw [h.rest, hr, List.cons_append]
      rw [character_plain hr hx, character_plain hr' hx]
      exact .ok ⟨rfl, h.drop (.inr (by simp [hr]))⟩
termination_by c.rest.length

/-! Atoms and strings -/

/-- Atoms that reach the end of the text end there in the longer text, too. -/
theorem isDelimiter_newline : isDelimiter '\n' = true := by
  decide

theorem scanAtom_plain {out rest : List Char} {escaped : Bool} {pos : Nat} {x : Char}
    (hx : x ≠ '\\') :
    scanAtom out escaped pos (x :: rest) =
      if isDelimiter x then .ok (String.ofList out.reverse, escaped, ⟨pos, x :: rest⟩)
      else scanAtom (x :: out) escaped (pos + 1) rest := by
  rw [scanAtom]
  · exact fun h => absurd h hx
  · exact fun _ _ h => absurd h hx

/-- An atom that runs to the end of the text ends there in the longer text too. -/
theorem scanAtom_follows {out cs : List Char} {escaped : Bool} {pos : Nat}
    (h : j.behind = [] ∨ On j.text ⟨pos, cs⟩) :
    j.Follows j.AlikeTwo (scanAtom out escaped pos cs)
      (scanAtom out escaped (j.before + pos) (cs ++ j.behind)) := by
  have stops : ∀ (out : List Char) (escaped : Bool) pos cs, j.behind = [] ∨ On j.text ⟨pos, cs⟩ →
      j.Follows j.AlikeTwo (.ok (String.ofList out, escaped, ⟨pos, cs⟩))
        (.ok (String.ofList out, escaped, ⟨j.before + pos, cs ++ j.behind⟩)) :=
    fun out escaped pos cs h => .ok ⟨rfl, rfl, .refl h⟩
  fun_induction scanAtom out escaped pos cs with
  | case1 out escaped pos =>
    have hends : scanAtom out escaped (j.before + pos) ([] ++ j.behind) =
        .ok (String.ofList out.reverse, escaped, ⟨j.before + pos, [] ++ j.behind⟩) := by
      obtain hb | ⟨more, hb⟩ := j.behind_cases
      · rw [hb]
        rfl
      · rw [hb, List.nil_append, scanAtom_plain (by decide), if_pos isDelimiter_newline]
    rw [hends]
    exact stops _ _ _ _ h
  | case2 out escaped pos =>
    refine .open_end rfl fun hbehind => ?_
    simp [hbehind, scanAtom, Fault.shift]
  | case3 out escaped pos x rest ih =>
    have hrest := ih (h.imp id fun h => h.drop (n := 2) (by simp))
    rw [← Nat.add_assoc] at hrest
    exact hrest
  | case4 out escaped pos x rest hx hx' hd =>
    have hne : x ≠ '\\' := fun heq => by cases rest with
      | nil => exact hx heq rfl
      | cons y tail => exact hx' y tail heq rfl
    rw [List.cons_append, scanAtom_plain hne, if_pos hd]
    exact stops _ _ _ _ h
  | case5 out escaped pos x rest hx hx' hd ih =>
    have hne : x ≠ '\\' := fun heq => by cases rest with
      | nil => exact hx heq rfl
      | cons y tail => exact hx' y tail heq rfl
    have hrest := ih (h.imp id fun h => h.drop (n := 1) (by simp))
    rw [← Nat.add_assoc] at hrest
    rwa [List.cons_append, scanAtom_plain hne, if_neg hd]

theorem atomAt_follows (h : j.At c c') : j.Follows j.AlikeTwo (atomAt c) (atomAt c') := by
  have hatom : j.behind = [] ∨ On j.text ⟨c.pos, c.rest⟩ := h.inside
  rw [h.place]
  exact scanAtom_follows hatom

theorem scanString_nil {origin c : Cursor} {out : List Char} (hr : c.rest = []) :
    scanString origin out c = origin.fail .endOfFile := by
  rw [scanString]
  split <;> simp_all

theorem scanString_quote {origin c : Cursor} {out tail : List Char} (hr : c.rest = '"' :: tail) :
    scanString origin out c = .ok (String.ofList out.reverse, c.drop 1) := by
  rw [scanString]
  split <;> simp_all

theorem scanString_backslash {origin c : Cursor} {out tail : List Char}
    (hr : c.rest = '\\' :: tail) :
    scanString origin out c = match character true c with
      | .error f => .error f
      | .ok (none, next) => scanString origin out next
      | .ok (some code, next) => scanString origin (charOfCode code :: out) next := by
  rw [scanString]
  split
  · simp_all
  · simp_all
  · split <;> rename_i hc <;> simp only [hc]
  · simp_all

theorem scanString_plain {origin c : Cursor} {out tail : List Char} {x : Char}
    (hr : c.rest = x :: tail) (hq : x ≠ '"') (hx : x ≠ '\\') :
    scanString origin out c = scanString origin (x :: out) (c.drop 1) := by
  rw [scanString]
  split
  · simp_all
  · rename_i hr'
    exact (hq (List.cons.inj (hr.symm.trans hr')).1).elim
  · rename_i hr'
    exact (hx (List.cons.inj (hr.symm.trans hr')).1).elim
  · rename_i hr'
    rw [(List.cons.inj (hr.symm.trans hr')).1]

/-- A string that is not closed in the text may be closed behind it; the induction is on what is
left. -/
theorem scanString_follows {out : List Char} {c c' : Cursor} (ho : j.At origin origin')
    (h : j.At c c') :
    j.Follows j.Alike (scanString origin out c) (scanString origin' out c') := by
  cases hr : c.rest with
  | nil =>
    rw [scanString_nil hr]
    refine .open_end rfl fun hbehind => ?_
    rw [scanString_nil (by rw [h.place, rest_of_nil hbehind, hr]), ho.place]
    rfl
  | cons x tail =>
    have hr' : c'.rest = x :: (tail ++ j.behind) := by rw [h.rest, hr, List.cons_append]
    have hone : j.At (c.drop 1) (c'.drop 1) := h.drop (.inr (by simp [hr]))
    by_cases hq : x = '"'
    · subst hq
      rw [scanString_quote hr, scanString_quote hr']
      exact .ok ⟨rfl, hone⟩
    by_cases hx : x = '\\'
    · subst hx
      rw [scanString_backslash hr, scanString_backslash hr']
      obtain ⟨⟨code?, next⟩, ⟨code?', next'⟩, hc, hc', hsame, hnext⟩ | ⟨fault, hc, hc'⟩ :=
        (character_follows true h).cases
      · obtain rfl : code?' = code? := hsame
        have := character_shorter hc
        simp only [hc, hc']
        cases code?' with
        | none => exact scanString_follows ho hnext
        | some code => exact scanString_follows ho hnext
      · simp only [hc]
        intro hf
        rw [hc' hf]
    · rw [scanString_plain hr hq hx, scanString_plain hr' hq hx]
      have : (c.drop 1).rest.length < c.rest.length := by simp [Cursor.drop, hr]
      exact scanString_follows ho hone
termination_by c.rest.length

theorem stringAt_follows (h : j.At c c') (hone : 1 ≤ c.rest.length) :
    j.Follows j.Alike (stringAt c) (stringAt c') :=
  scanString_follows h (h.drop (.inr hone))

/-! Marks after a hash sign -/

/-- Where the text has ended, only the end of a line can follow. -/
theorem head_joined (h : j.At c c') :
    (∃ x tail, c.rest = x :: tail ∧ c'.rest = x :: (tail ++ j.behind)) ∨
      c.rest = [] ∧ (c'.rest = [] ∨ ∃ more, c'.rest = '\n' :: more) := by
  rw [h.rest]
  cases c.rest with
  | nil => exact .inr ⟨rfl, j.behind_cases⟩
  | cons x tail => exact .inl ⟨x, tail, rfl, rfl⟩

/-- A text without a `#` at its end has something behind each of them. -/
theorem At.two_le (h : j.At c c') (hx : c.rest.head? = some '#') :
    j.behind = [] ∨ 2 ≤ c.rest.length := by
  obtain ⟨tail, hr⟩ := List.head?_eq_some_iff.1 hx
  rcases h.inside with hb | hon
  · exact .inl hb
  rcases j.joined with hb | ⟨-, -, hlast⟩
  · exact .inl hb
  refine .inr ?_
  cases tail with
  | nil =>
    have htext : j.text = j.text.take c.pos ++ ['#'] := by
      rw [← hr, hon.rest, List.take_append_drop]
    rw [htext] at hlast
    simp at hlast
  | cons y tail => simp [hr]

theorem one_le (hx : c.rest.head? = some '#') : 1 ≤ c.rest.length := by
  obtain ⟨tail, hr⟩ := List.head?_eq_some_iff.1 hx
  simp [hr]

/-- Digits after the character at a place, with one of the marks behind them. -/
def markedDigits? (marks : List Char) (c : Cursor) : Option (List Char × Char × Cursor) :=
  let digits := (c.rest.drop 1).takeWhile (Text.isDigitOf 10)
  let after := c.drop (1 + digits.length)
  match after.rest with
  | mark :: _ => if digits ≠ [] ∧ mark ∈ marks then some (digits, mark, after.drop 1) else none
  | [] => none

theorem labelMark?_eq (c : Cursor) : labelMark? c = markedDigits? ['=', '#'] c := by
  rw [labelMark?, markedDigits?]
  generalize c.drop _ = after
  cases after.rest with
  | nil => rfl
  | cons mark tail => simp

/-- A radix is marked by one letter, or by digits and an `r`. -/
theorem radixMark?_eq (c : Cursor) : radixMark? c =
    match (c.rest.drop 1).head?.bind radixOfLetter? with
    | some radix => some (.inl radix, c.drop 2)
    | none => (markedDigits? ['r', 'R'] c).map fun r => (.inr r.1, r.2.2) := by
  rw [radixMark?, markedDigits?]
  cases hl : c.rest.drop 1 with
  | nil =>
    simp only [List.head?_nil, Option.bind_none, List.takeWhile_nil, ne_eq, not_true_eq_false,
      false_and, if_false]
    split <;> rfl
  | cons letter tail =>
    cases hletter : radixOfLetter? letter with
    | some radix => simp [hletter]
    | none =>
      simp only [List.head?_cons, Option.bind_some, hletter, List.mem_cons,
        List.not_mem_nil, or_false]
      generalize c.drop _ = after
      cases after.rest with
      | nil => rfl
      | cons mark tail =>
        dsimp only
        split <;> rfl

/-- Digits and their mark are both found in the text, or the mark is not there. -/
theorem markedDigits?_joined (marks : List Char) (h : j.At c c') (hx : c.rest.head? = some '#')
    (hm : '\n' ∉ marks) :
    Option.Rel j.AlikeTwo (markedDigits? marks c) (markedDigits? marks c') := by
  have hone := one_le hx
  have hdigits : (c'.rest.drop 1).takeWhile (Text.isDigitOf 10) =
      (c.rest.drop 1).takeWhile (Text.isDigitOf 10) := by
    rw [h.rest, j.drop_of_le (.inr hone), j.takeWhile (by decide)]
  have hafter := h.drop (n := 1 + ((c.rest.drop 1).takeWhile (Text.isDigitOf 10)).length) (.inr (by
    have := (List.takeWhile_prefix (Text.isDigitOf 10) (l := c.rest.drop 1)).length_le
    rw [List.length_drop] at this
    omega))
  simp only [markedDigits?, hdigits]
  generalize c.drop _ = after at hafter ⊢
  generalize c'.drop _ = after' at hafter ⊢
  obtain ⟨mark, tail, hr, hr'⟩ | ⟨hr, hr' | ⟨more, hr'⟩⟩ := head_joined hafter
  · have hone : 1 ≤ after.rest.length := by simp [hr]
    simp only [hr, hr']
    split
    · exact .some ⟨rfl, rfl, hafter.drop (.inr hone)⟩
    · exact .none
  · simp only [hr, hr']
    exact .none
  · simp only [hr, hr', hm, and_false, if_false]
    exact .none

/-- What the character behind a `#` is. -/
theorem At.head?_second (h : j.At c c') (hx : c.rest.head? = some '#') :
    (c'.rest.drop 1).head? = (c.rest.drop 1).head? := by
  rw [h.rest]
  rcases h.two_le hx with hb | htwo
  · rw [hb, List.append_nil]
  · rw [j.drop_of_le (.inr (one_le hx))]
    cases hr : c.rest.drop 1 with
    | nil =>
      have := congrArg List.length hr
      simp at this
      omega
    | cons x tail => rfl

theorem radixMark?_joined (h : j.At c c') (hx : c.rest.head? = some '#') :
    Option.Rel j.Alike (radixMark? c) (radixMark? c') := by
  rw [radixMark?_eq, radixMark?_eq, h.head?_second hx]
  split
  · exact .some ⟨rfl, h.drop (h.two_le hx)⟩
  · have hdigits := markedDigits?_joined ['r', 'R'] h hx (by decide)
    generalize markedDigits? _ c = r at hdigits ⊢
    generalize markedDigits? _ c' = r' at hdigits ⊢
    cases hdigits with
    | none => exact .none
    | some hsame => exact .some ⟨congrArg Sum.inr hsame.1, hsame.2.2⟩

theorem radixDigits?_joined (h : j.At c c') :
    Option.Rel j.Alike (radixDigits? c) (radixDigits? c') := by
  have hsign : (c'.rest.take 1).filter (fun x => x == '+' || x == '-') =
      (c.rest.take 1).filter fun x => x == '+' || x == '-' := by
    obtain ⟨x, tail, hr, hr'⟩ | ⟨hr, hr' | ⟨more, hr'⟩⟩ := head_joined h <;> simp [hr, hr']
  have hlength : ((c.rest.take 1).filter fun x => x == '+' || x == '-').length ≤ c.rest.length :=
    Nat.le_trans (List.length_filter_le _ _) (List.length_take_le' _ _)
  simp only [radixDigits?, hsign]
  generalize (c.rest.take 1).filter _ = sign at hlength ⊢
  rw [h.rest, j.drop_of_le (.inr hlength), j.takeWhile (by decide)]
  split
  · exact .none
  · refine .some ⟨rfl, h.drop (.inr ?_)⟩
    have := (List.takeWhile_prefix isAlphanumericAscii (l := c.rest.drop sign.length)).length_le
    rw [List.length_drop] at this
    omega

/-- Both see the number of a radix, or neither does. -/
theorem radixNumber?_joined (h : j.At c c') (hx : c.rest.head? = some '#') :
    Option.Rel (j.Follows j.Alike) (radixNumber? c) (radixNumber? c') := by
  have hmark := radixMark?_joined h hx
  rw [radixNumber?, radixNumber?]
  generalize radixMark? c = m at hmark ⊢
  generalize radixMark? c' = m' at hmark ⊢
  cases hmark with
  | none => exact .none
  | @some m m' hm =>
    obtain ⟨mark, body⟩ := m
    obtain ⟨mark', body'⟩ := m'
    obtain ⟨hsame, hbody⟩ := hm
    obtain rfl : mark' = mark := hsame
    have hdigits := radixDigits?_joined hbody
    dsimp only
    generalize radixDigits? body = d at hdigits ⊢
    generalize radixDigits? body' = d' at hdigits ⊢
    cases hdigits with
    | none => exact .none
    | @some d d' hd =>
      obtain ⟨digits, next⟩ := d
      obtain ⟨digits', next'⟩ := d'
      obtain ⟨hsame, hnext⟩ := hd
      obtain rfl : digits' = digits := hsame
      refine .some ?_
      split
      · rename_i f hf
        have hfault : f.shift j.before = f := by
          cases mark' with
          | inl radix => cases hf
          | inr digits =>
            cases hread : Text.Numeral.read 10 digits <;>
              simp only [readNumeral, hread] at hf <;> cases hf
            rfl
        intro _
        rw [hfault]
      · split
        · exact .ok ⟨rfl, hnext⟩
        · refine .open_end rfl fun hbehind => ?_
          have hnext : next' = j.place next := hnext.place
          rw [h.place, hnext]
          simp [Joint.place, hbehind, Cursor.fail, Fault.shift, Nat.add_sub_add_left]

theorem fixedMark?_joined (h : j.At c c') :
    Option.Rel j.Alike (fixedMark? c) (fixedMark? c') := by
  have hfind : fixedMarks.find? (fun m => c'.startsWith m.1) =
      fixedMarks.find? fun m => c.startsWith m.1 := by
    have all : ∀ m ∈ fixedMarks, '\n' ∉ m.1.toList := by decide
    exact List.find?_congr fun m hm => h.startsWith (all m hm)
  rw [fixedMark?, fixedMark?, hfind]
  cases hm : fixedMarks.find? fun m => c.startsWith m.1 with
  | none => exact .none
  | some m => exact .some ⟨rfl, h.dropText (by simpa using List.find?_some hm)⟩

/-- A symbol behind `#:` or `#_` ends with the text at the latest. -/
theorem bareSymbol_follows (h : j.At c c') (hx : c.rest.head? = some '#') :
    j.Follows j.Alike (bareSymbol c) (bareSymbol c') := by
  obtain ⟨r, r', ha, ha', hsame, -, hnext⟩ | ⟨f, ha, ha'⟩ :=
    (atomAt_follows (h.drop (h.two_le hx))).cases
  · rw [bareSymbol, bareSymbol, ha, ha']
    exact .ok ⟨congrArg (Lexeme.atom · true) hsame, hnext⟩
  · rw [bareSymbol, ha]
    intro hf
    rw [bareSymbol, ha' hf]

theorem boolVectorLexeme_joined (h : j.At c c') (htwo : 2 ≤ c.rest.length) :
    j.Alike (boolVectorLexeme c) (boolVectorLexeme c') := by
  have hcount : 2 + ((c.rest.drop 2).takeWhile Text.isDigit).length ≤ c.rest.length := by
    have := (List.takeWhile_prefix Text.isDigit (l := c.rest.drop 2)).length_le
    rw [List.length_drop] at this
    omega
  simp only [boolVectorLexeme]
  rw [h.rest, j.drop_of_le (.inr htwo), j.takeWhile (by decide), j.take_of_le (.inr hcount)]
  exact ⟨rfl, h.drop (.inr hcount)⟩

/-- A label is the number that its digits write; its mark tells a definition from a reference. -/
theorem labelLexeme_follows {digits : List Char} {mark : Char} (h : j.At c c') :
    j.Follows j.Alike (labelLexeme digits mark c) (labelLexeme digits mark c') := by
  unfold labelLexeme
  rw [readNumeral]
  cases Text.Numeral.read 10 digits with
  | ok n => exact .ok ⟨rfl, h⟩
  | error f => exact .error _

/-- The marks behind a `#` are tried in one order on both sides. -/
theorem hashLexeme_follows (tolerant : Bool) (h : j.At c c') (hx : c.rest.head? = some '#') :
    j.Follows j.Alike (hashLexeme tolerant c) (hashLexeme tolerant c') := by
  have hfixed := fixedMark?_joined h
  have hlabel := markedDigits?_joined ['=', '#'] h hx (by decide)
  rw [← labelMark?_eq, ← labelMark?_eq] at hlabel
  have hradix := radixNumber?_joined h hx
  rw [hashLexeme, hashLexeme, h.head?_second hx]
  generalize fixedMark? c = m at hfixed ⊢
  generalize fixedMark? c' = m' at hfixed ⊢
  cases hfixed with
  | some hsame => exact .ok hsame
  | none =>
    dsimp only
    split
    · exact bareSymbol_follows h hx
    split
    · rename_i hamp
      refine .ok (boolVectorLexeme_joined h ?_)
      obtain ⟨tail, htail⟩ := List.head?_eq_some_iff.1 hamp
      have := congrArg List.length htail
      simp at this
      omega
    generalize labelMark? c = l at hlabel ⊢
    generalize labelMark? c' = l' at hlabel ⊢
    cases hlabel with
    | @some l l' hl =>
      obtain ⟨digits, mark, next⟩ := l
      obtain ⟨digits', mark', next'⟩ := l'
      obtain ⟨hdigits, hmark, hnext⟩ := hl
      obtain rfl : digits' = digits := hdigits
      obtain rfl : mark' = mark := hmark
      exact labelLexeme_follows hnext
    | none =>
      generalize radixNumber? c = r at hradix ⊢
      generalize radixNumber? c' = r' at hradix ⊢
      cases hradix with
      | some hr => exact hr
      | none =>
        dsimp only
        split
        · exact .ok ⟨rfl, h.drop (.inr (one_le hx))⟩
        · intro _
          rw [h.place]
          rfl

/-! Tokens -/

theorem commaLexeme_joined (h : j.At c c') (hone : 1 ≤ c.rest.length) :
    j.Alike (commaLexeme c) (commaLexeme c') := by
  unfold commaLexeme
  rw [h.startsWith (by decide)]
  split
  · rename_i hmark
    exact ⟨rfl, h.dropText hmark⟩
  · exact ⟨rfl, h.drop (.inr hone)⟩

theorem stringLexeme_follows (h : j.At c c') (hone : 1 ≤ c.rest.length) :
    j.Follows j.Alike (stringLexeme c) (stringLexeme c') := by
  obtain ⟨r, r', hs, hs', hsame, hnext⟩ | ⟨f, hs, hs'⟩ := (stringAt_follows h hone).cases
  · rw [stringLexeme, stringLexeme, hs, hs']
    exact .ok ⟨congrArg Lexeme.string hsame, hnext⟩
  · rw [stringLexeme, hs]
    intro hf
    rw [stringLexeme, hs' hf]

theorem charLexeme_follows (h : j.At c c') (hone : 1 ≤ c.rest.length) :
    j.Follows j.Alike (charLexeme c) (charLexeme c') := by
  have hrest : c'.rest.drop 1 = c.rest.drop 1 ++ j.behind := by
    rw [h.rest, j.drop_of_le (.inr hone)]
  unfold charLexeme
  cases hempty : (c.rest.drop 1).isEmpty with
  | true =>
    refine .open_end rfl fun hbehind => ?_
    rw [hrest, hbehind, List.append_nil, hempty, h.place]
    rfl
  | false =>
    have hempty' : (c'.rest.drop 1).isEmpty = false := by
      rw [List.isEmpty_eq_false_iff] at hempty ⊢
      rw [hrest]
      exact List.append_ne_nil_of_left_ne_nil hempty _
    rw [hempty']
    obtain ⟨r, r', hc, hc', hsame, hnext⟩ | ⟨f, hc, hc'⟩ :=
      (character_follows false (h.drop (.inr hone))).cases
    · simp only [hc, hc', hsame]
      exact .ok ⟨rfl, hnext⟩
    · simp only [hc]
      intro hf
      simp only [hc' hf]
      rfl

theorem atomLexeme_follows (h : j.At c c') :
    j.Follows j.Alike (atomLexeme c) (atomLexeme c') := by
  obtain ⟨⟨text, escaped, next⟩, ⟨text', escaped', next'⟩, ha, ha', hsame, hsame', hnext⟩ |
      ⟨f, ha, ha'⟩ :=
    (atomAt_follows h).cases
  · obtain rfl : text' = text := hsame
    obtain rfl : escaped' = escaped := hsame'
    rw [atomLexeme, atomLexeme, ha, ha']
    exact .ok ⟨rfl, hnext⟩
  · rw [atomLexeme, ha]
    intro hf
    rw [atomLexeme, ha' hf]

/-- The first character decides what is read, here as in the longer text. -/
theorem lexeme_follows (tolerant : Bool) {x : Char} {tail : List Char} (h : j.At c c')
    (hr : c.rest = x :: tail) :
    j.Follows j.Alike (lexeme tolerant c x) (lexeme tolerant c' x) := by
  have hone : 1 ≤ c.rest.length := by simp [hr]
  unfold lexeme
  split
  · exact .ok ⟨rfl, h.drop (.inr hone)⟩
  split
  · exact .ok (commaLexeme_joined h hone)
  split
  · exact stringLexeme_follows h hone
  split
  · exact charLexeme_follows h hone
  split
  · rename_i hhash
    obtain rfl := beq_iff_eq.1 hhash
    exact hashLexeme_follows tolerant h (by rw [hr]; rfl)
  · exact atomLexeme_follows h

end Joint

end PatternLint.Reader
