import PatternLint.Proofs.OpenSets
import PatternLint.Proofs.RegexpPhrases
import PatternLint.Proofs.SetIssues

/-! Carets that are tokens of their own. The linter looks at the text on the left of a caret to tell
an anchor from a literal. It sees the token before the caret there, unless a backslash that ends an
earlier token makes other tokens look like one. -/

namespace PatternLint.Pattern.Regexp

/-- The text of a token behind which a branch starts: it opens a group or parts two alternatives. -/
inductive StartsBranch : List Char → Prop
  | group : StartsBranch ['\\', '(']
  | marked {digits : List Char} (h : ∀ c ∈ digits, Text.isDigit c = true) :
      StartsBranch ('\\' :: '(' :: '?' :: (digits ++ [':']))
  | alternation : StartsBranch ['\\', '|']

/-- The tokens end in what looks like such a token, but its backslash is the
end of an earlier one. -/
def Disguised (ts : List Token) : Prop :=
  ∃ front t rest, ts = front ++ t :: rest ∧ t.text.getLast? = some '\\' ∧
    StartsBranch ('\\' :: rest.flatMap Token.text)

variable {st st' : State} {before rest after taken text u v : List Char} {c x : Char} {pos n : Nat}
  {s t m : Spot} {k : Token} {ts us : List Token}

/-! ### The text before a place -/

theorem opensBefore_of_startsBranch (h : StartsBranch v) (u : List Char) :
    opensBefore (u ++ v).reverse = true := by
  cases h with
  | group => simp [opensBefore]
  | @marked digits h =>
    have hopens := Rx.opensBefore_numbered digits.reverse (by simpa using h) u.reverse
    simpa using hopens
  | alternation => simp [opensBefore]

theorem startsBranch_of_opensBefore (h : opensBefore before = true) :
    ∃ u v, before.reverse = u ++ v ∧ StartsBranch v := by
  unfold opensBefore at h
  split at h
  · rename_i rest
    exact ⟨rest.reverse, _, by simp, .group⟩
  · rename_i rest
    exact ⟨rest.reverse, _, by simp, .alternation⟩
  · rename_i rest
    split at h
    · rename_i n hfind
      obtain ⟨tail, htail⟩ := List.isPrefixOf_iff_prefix.mp (Text.find?_some hfind).2
      have hrest : rest = rest.take n ++ '?' :: '(' :: '\\' :: tail := by
        rw [show '?' :: '(' :: '\\' :: tail = rest.drop n from htail, List.take_append_drop]
      refine ⟨tail.reverse, '\\' :: '(' :: '?' :: ((rest.take n).reverse ++ [':']), ?_,
        .marked fun c hc => List.all_eq_true.mp h c (List.mem_reverse.mp hc)⟩
      generalize rest.take n = digits at hrest
      simp [hrest]
    · cases h
  · cases h

/-! ### One token -/

/-- A backslash among the characters that a token takes behind its first one is the last of them, or
something follows that closes a set or an interval. -/
def Closed (taken : List Char) : Prop :=
  ∀ x y, taken = x ++ '\\' :: y → y = [] ∨ ']' ∈ y ∨ '\x7d' ∈ y

theorem closed_short (h : taken.length ≤ 1) : Closed taken := by
  rintro x y rfl
  have : y.length = 0 := by
    simp at h
    omega
  exact .inl (List.length_eq_zero_iff.mp this)

theorem closed_plain (h : '\\' ∉ taken) : Closed taken := by
  rintro x y rfl
  exact absurd (by simp) h

theorem closed_pair {a b : Char} (h : a ≠ '\\') : Closed [a, b] := by
  intro x y heq
  match x with
  | [] => exact absurd (List.cons.inj heq).1 h
  | [_] => exact .inl (List.cons.inj (List.cons.inj heq).2).2.symm
  | _ :: _ :: _ => simp at heq

theorem closed_end {d : Char} (h : d = ']' ∨ d = '\x7d') : Closed (taken ++ [d]) := by
  intro x y heq
  have hne : d ≠ '\\' := by rcases h with rfl | rfl <;> decide
  obtain rfl | ⟨y, e, rfl⟩ := y.eq_nil_or_concat
  · exact absurd (List.append_inj' heq rfl).2 (by simpa using hne)
  · have hlast : [d] = [e] := by
      rw [List.concat_eq_append, ← List.cons_append, ← List.append_assoc] at heq
      exact (List.append_inj' heq rfl).2
    cases hlast
    rcases h with rfl | rfl <;> simp

/-- A step with what it takes behind the first character; it says nothing about carets. -/
structure Quiet (st : State) (rest : List Char) (n : Nat) (st' : State) : Prop where
  le : n ≤ rest.length
  closed : Closed (rest.take n)
  reports : Reports (· ≠ .unescaped '^') st st'

theorem quiet_short (hn : n ≤ 1) (hle : n ≤ rest.length)
    (hreports : Reports (· ≠ .unescaped '^') st st') : Quiet st rest n st' :=
  ⟨hle, closed_short (by simp; omega), hreports⟩

theorem groupStep_quiet (h : groupStep st pos rest = .ok (st', n)) :
    Quiet st ('(' :: rest) n st' := by
  unfold groupStep at h
  dsimp only at h
  split at h
  · rename_i after
    generalize hdigits : after.takeWhile Text.isDigit = digits at h
    split at h
    · rename_i tail hdrop
      cases h
      have hprefix : digits = after.take digits.length :=
        List.prefix_iff_eq_take.mp (hdigits ▸ List.takeWhile_prefix _)
      have hafter : after = digits ++ ':' :: tail := calc
        after = after.take digits.length ++ after.drop digits.length :=
          (List.take_append_drop _ _).symm
        _ = digits ++ ':' :: tail := by rw [← hprefix, hdrop]
      have hplain : '\\' ∉ digits := fun hmem =>
        absurd (List.mem_takeWhile_imp (hdigits ▸ hmem)) (by decide +kernel)
      subst hafter
      refine ⟨by simp, closed_plain ?_, .of_eq rfl⟩
      have htaken : ('(' :: '?' :: (digits ++ ':' :: tail)).take (digits.length + 3)
          = '(' :: '?' :: (digits ++ [':']) := by
        simp [List.take_append, List.take_of_length_le]
      simpa [htaken] using hplain
    · cases h
  · cases h
    exact quiet_short (Nat.le_refl _) (by simp) (.of_eq rfl)

/-- An interval that is accepted takes all up to its closing brace. -/
theorem intervalStep_ok (h : intervalStep st pos rest = .ok (st', n)) :
    st' = (Rx.intervalReport st pos).setOperand .repetition ∧
      ∃ body tail, rest = body ++ '\\' :: '\x7d' :: tail ∧ n = body.length + 3 := by
  unfold intervalStep at h
  split at h
  · cases h
  · rename_i k hfind
    obtain ⟨hle, hprefix⟩ := Text.find?_some hfind
    obtain ⟨tail, htail⟩ := List.isPrefixOf_iff_prefix.mp hprefix
    have hrest : rest = rest.take k ++ '\\' :: '\x7d' :: tail := by
      rw [show '\\' :: '\x7d' :: tail = rest.drop k from htail, List.take_append_drop]
    suffices hend : (Rx.intervalReport st pos).setOperand .repetition = st' ∧ k + 3 = n from
      ⟨hend.1.symm, _, tail, hrest, by simp [← hend.2, hle]⟩
    generalize splitBounds (rest.take k) = bounds at h
    obtain ⟨low, high⟩ := bounds
    dsimp only at h
    split at h
    · cases h
    · split at h
      · obtain ⟨a, -, h⟩ := Rx.except_bind_eq_ok.mp h
        obtain ⟨b, -, h⟩ := Rx.except_bind_eq_ok.mp h
        split at h
        · cases h
        · cases h
          exact ⟨rfl, rfl⟩
      · cases h
        exact ⟨rfl, rfl⟩

theorem intervalStep_quiet (h : intervalStep st pos rest = .ok (st', n)) :
    Quiet st ('\x7b' :: rest) n st' := by
  obtain ⟨rfl, body, tail, rfl, rfl⟩ := intervalStep_ok h
  have htaken : ('\x7b' :: (body ++ '\\' :: '\x7d' :: tail)).take (body.length + 3)
      = ('\x7b' :: body ++ ['\\']) ++ ['\x7d'] := by
    simp [List.take_append, List.take_of_length_le]
  refine ⟨by simp, htaken ▸ closed_end (.inr rfl), ?_⟩
  unfold Rx.intervalReport
  split
  · exact .one (by decide) rfl
  · exact .of_eq rfl
  · exact .one (by decide) rfl

theorem setStep_quiet (h : setStep st pos rest = .ok (st', n)) : Quiet st rest n st' := by
  obtain ⟨es, after, hes, rfl⟩ := elements_of_setStep h
  obtain ⟨issues, stop, hset, hstep⟩ := setStep_ok hes st pos
  cases hstep.symm.trans h
  obtain ⟨inner, hinner, -⟩ := behindSet?_some (behindSet?_of_elements hes)
  have hrest : rest = (rest.take (caretLength rest) ++ inner) ++ (']' :: after) := by
    rw [List.append_assoc, ← hinner, List.take_append_drop]
  generalize rest.take (caretLength rest) ++ inner = whole at hrest
  have htaken : rest.take (rest.length - after.length) = whole ++ [']'] := by
    rw [hrest, show (whole ++ ']' :: after).length - after.length = (whole ++ [']']).length by
      simp; omega, show whole ++ ']' :: after = (whole ++ [']']) ++ after by simp, List.take_left]
  refine ⟨by omega, htaken ▸ closed_end (.inl rfl), ?_⟩
  obtain ⟨new, hnew, hall⟩ := setFrom_reports hes hset
  refine ⟨new, hnew, fun i hi => ?_⟩
  obtain ⟨issue, hissue⟩ := hall i hi
  simp [hissue]

theorem postfixStep_quiet (st : State) (pos : Nat) (hc : c ≠ '^') (rest : List Char) :
    Quiet st rest (postfixStep st pos c rest).2 (postfixStep st pos c rest).1 := by
  unfold postfixStep
  split
  · exact quiet_short (by simp) (by simp) (.one (by simpa using hc) rfl)
  · dsimp only
    refine quiet_short ?_ ?_ ?_
    · split <;> simp
    · split
      · rename_i hmark
        cases rest with
        | nil => simp at hmark
        | cons => simp
      · simp
    · split
      · exact .one (by decide) rfl
      · exact .of_eq rfl

/-- A character that is not a backslash, and one more behind it. -/
theorem pair_quiet (hc : c ≠ '\\') (hrest : rest ≠ []) (operand : Operand) :
    Quiet st (c :: rest) 2 (st.setOperand operand) := by
  obtain ⟨x, rest, rfl⟩ := List.exists_cons_of_ne_nil hrest
  exact ⟨by simp, closed_pair hc, .of_eq rfl⟩

theorem ne_nil_of_any {p : Char → Bool} (h : rest.head?.any p = true) : rest ≠ [] := by
  rintro rfl
  cases h

theorem escapeStep_quiet (h : escapeStep st pos c rest = .ok (st', n)) :
    Quiet st (c :: rest) n st' := by
  have hone {st' : State} (hissues : st'.issues = st.issues) : Quiet st (c :: rest) 1 st' :=
    quiet_short (Nat.le_refl _) (by simp) (.of_eq hissues)
  unfold escapeStep at h
  split at h
  · rename_i hc
    exact eq_of_beq hc ▸ groupStep_quiet h
  split at h
  · split at h
    · cases h
    · cases h
      exact hone rfl
  split at h
  · cases h
    exact hone rfl
  split at h
  · rename_i hc
    exact eq_of_beq hc ▸ intervalStep_quiet h
  split at h
  · rename_i hc
    split at h
    · rename_i hany
      cases h
      exact pair_quiet (by rintro rfl; cases hc) (ne_nil_of_any hany) _
    · cases h
  split at h
  · rename_i hc
    split at h
    · cases h
    · rename_i hne
      cases h
      exact pair_quiet (by rintro rfl; cases hc) (by simpa using hne) _
  split at h
  · rename_i hc
    split at h
    · rename_i hany
      cases h
      exact pair_quiet (by rintro rfl; cases hc) (ne_nil_of_any hany) _
    · cases h
  split at h
  · cases h
    exact hone rfl
  split at h
  · split at h
    · cases h
    · cases h
      exact hone rfl
  split at h
  · cases h
    exact hone rfl
  · cases h
    exact quiet_short (Nat.le_refl _) (by simp) (.one (by simp) rfl)

/-- A step at any other character than a caret. -/
theorem step_quiet (h : step st before pos c rest = .ok (st', n)) (hc : c ≠ '^') :
    Quiet st rest n st' := by
  unfold step at h
  split at h
  · split at h
    · cases h
    · exact escapeStep_quiet h
  split at h
  · exact setStep_quiet h
  split at h
  · have hquiet := postfixStep_quiet st pos hc rest
    rwa [Except.ok.inj h] at hquiet
  split at h
  · rename_i heq
    exact absurd (eq_of_beq heq) hc
  split at h
  · rename_i hdollar
    cases h
    refine quiet_short (Nat.zero_le _) (Nat.zero_le _) ?_
    unfold anchorStep
    split
    · exact .of_eq rfl
    · exact .one (by simpa using hc) rfl
  · cases h
    exact quiet_short (Nat.zero_le _) (Nat.zero_le _) (.of_eq rfl)

/-- The step at a caret takes nothing else. -/
theorem step_caret (h : step st before pos '^' rest = .ok (st', n)) :
    n = 0 ∧ st' = anchorStep st pos '^' (pos == 0 || opensBefore before) := by
  change Except.ok _ = _ at h
  cases h
  exact ⟨rfl, rfl⟩

/-- What a step reports about carets it reports at its own place. -/
theorem step_issues (h : step st before pos c rest = .ok (st', n)) :
    ∃ new, st'.issues = new ++ st.issues ∧ ∀ i ∈ new, i.2 = .unescaped '^' → i.1 = pos := by
  by_cases hc : c = '^'
  · subst hc
    obtain ⟨-, rfl⟩ := step_caret h
    unfold anchorStep
    split
    · exact ⟨[], rfl, nofun⟩
    · exact ⟨[(pos, .unescaped '^')], rfl, by simp⟩
  · obtain ⟨new, hnew, hall⟩ := (step_quiet h hc).reports
    exact ⟨new, hnew, fun i hi heq => absurd heq (hall i hi)⟩

theorem step_le (h : step st before pos c rest = .ok (st', n)) : n ≤ rest.length := by
  by_cases hc : c = '^'
  · subst hc
    obtain ⟨rfl, -⟩ := step_caret h
    exact Nat.zero_le _
  · exact (step_quiet h hc).le

/-! ### Runs -/

namespace Runs

variable {a : List Char} {k : Token}

/-- Where the linter gets to the end, it has gone over tokens. -/
theorem of_lintFrom {s : Spot} {cs : List Char} {st : State}
    (h : lintFrom s.state s.before s.pos cs = .ok st) :
    ∃ ts t, Runs s cs [] ts t ∧ t.state = st ∧ st.groups = [] := by
  match cs with
  | [] =>
    rw [lintFrom] at h
    split at h
    · rename_i hgroups
      cases h
      exact ⟨[], s, .nil, rfl, hgroups⟩
    · cases h
  | c :: rest =>
    rw [lintFrom] at h
    split at h
    · cases h
    · rename_i next n hstep
      have hlength : (rest.take n).length = n := List.length_take_of_le (step_le hstep)
      have hpast : lintFrom (s.past (c :: rest.take n) next).state
          (s.past (c :: rest.take n) next).before (s.past (c :: rest.take n) next).pos (rest.drop n)
            = .ok st := by
        simpa [Spot.past, hlength, Nat.add_assoc, Nat.add_comm 1] using h
      obtain ⟨ts, t, hruns, hstate, hgroups⟩ := of_lintFrom hpast
      have htoken : Runs s (c :: rest.take n ++ rest.drop n) []
          (⟨c :: rest.take n, s.state.groups.length⟩ :: ts) t :=
        .cons (by rwa [List.append_nil, List.take_append_drop, hlength]) hruns
      rw [List.cons_append, List.take_append_drop] at htoken
      exact ⟨_, t, htoken, hstate, hgroups⟩
termination_by cs.length
decreasing_by rw [List.length_drop, List.length_cons]; omega

theorem place (h : Runs s a after ts t) :
    t.before = a.reverse ++ s.before ∧ t.pos = s.pos + a.length := by
  induction h with
  | nil => simp
  | cons _ _ ih =>
    rw [ih.1, ih.2]
    simp [Spot.past, Nat.add_assoc, Nat.add_comm 1]

theorem nil_iff (h : Runs s a after ts t) : a = [] ↔ ts = [] := by
  cases h <;> simp

theorem head (h : Runs s a after (k :: us) t) :
    ∃ c more rest st', k.text = c :: more ∧ a = c :: more ++ rest ∧
      step s.state s.before s.pos c (more ++ (rest ++ after)) = .ok (st', more.length) ∧
      Runs (s.past (c :: more) st') rest after us t := by
  cases h with
  | cons hstep h => exact ⟨_, _, _, _, rfl, rfl, hstep, h⟩

theorem split (h : Runs s a after (ts ++ us) t) :
    ∃ b c m, a = b ++ c ∧ Runs s b (c ++ after) ts m ∧ Runs m c after us t := by
  induction ts generalizing s a with
  | nil => exact ⟨[], a, s, rfl, .nil, h⟩
  | cons k ts ih =>
    cases h with
    | cons hstep h =>
      obtain ⟨b, c, m, rfl, hb, hc⟩ := ih h
      refine ⟨_ :: _ ++ b, c, m, (List.append_assoc _ _ _).symm, .cons ?_ hb, hc⟩
      rwa [List.append_assoc] at hstep

theorem issues (h : Runs s a after ts t) :
    ∃ new, t.state.issues = new ++ s.state.issues ∧
      ∀ i ∈ new, i.2 = .unescaped '^' → s.pos ≤ i.1 ∧ i.1 < t.pos := by
  induction h with
  | nil => exact ⟨[], rfl, nofun⟩
  | @cons s t c more rest after st ts hstep hruns ih =>
    obtain ⟨new, hnew, hplaces⟩ := step_issues hstep
    obtain ⟨new', hnew', hplaces'⟩ := ih
    have hpos := hruns.place.2
    simp only [Spot.past, List.length_cons] at hpos hplaces' hnew'
    refine ⟨new' ++ new, by rw [hnew', hnew, List.append_assoc], fun i hi heq => ?_⟩
    obtain hi | hi := List.mem_append.mp hi
    · have := hplaces' i hi heq
      omega
    · have := hplaces i hi heq
      omega

end Runs

/-! ### The token before a caret -/

/-- A suffix of the text of tokens begins in one of them. -/
theorem split_text (h : ts.flatMap Token.text = u ++ v) (hv : v ≠ []) :
    ∃ front k rest x y, ts = front ++ k :: rest ∧ k.text = x ++ y ∧ y ≠ [] ∧
      v = y ++ rest.flatMap Token.text := by
  induction ts generalizing u with
  | nil =>
    obtain ⟨-, rfl⟩ := List.append_eq_nil_iff.mp h.symm
    exact absurd rfl hv
  | cons k ts ih =>
    rw [List.flatMap_cons, List.append_eq_append_iff] at h
    obtain ⟨w, rfl, hw⟩ | ⟨w, hk, hw⟩ := h
    · obtain ⟨front, k', rest, x, y, rfl, hsplit⟩ := ih hw
      exact ⟨k :: front, k', rest, x, y, rfl, hsplit⟩
    · cases w with
      | nil =>
        obtain ⟨front, k', rest, x, y, rfl, hsplit⟩ := ih (u := []) hw.symm
        exact ⟨k :: front, k', rest, x, y, rfl, hsplit⟩
      | cons d w => exact ⟨[], k, ts, u, d :: w, rfl, hk, List.cons_ne_nil _ _, hw⟩

theorem StartsBranch.backslash (h : StartsBranch v) : ∃ w, v = '\\' :: w := by
  cases h <;> exact ⟨_, rfl⟩

theorem StartsBranch.no_closer (h : StartsBranch v) : ']' ∉ v ∧ '\x7d' ∉ v := by
  cases h with
  | group => decide
  | marked hdigits =>
    have hbracket : ']' ∉ _ := fun hmem => absurd (hdigits _ hmem) (by decide +kernel)
    have hbrace : '\x7d' ∉ _ := fun hmem => absurd (hdigits _ hmem) (by decide +kernel)
    simp [hbracket, hbrace]
  | alternation => decide

/-- A token that begins like the start of a branch is all of it. -/
theorem whole_of_step
    (h : step st before pos '\\' (taken ++ (rest ++ after)) = .ok (st', taken.length))
    (hv : StartsBranch ('\\' :: (taken ++ rest))) (hafter : after.head? ≠ some '?') :
    rest = [] := by
  rw [← List.append_assoc] at h
  suffices hlength : (taken ++ rest).length = taken.length by
    rw [List.length_append] at hlength
    exact List.length_eq_zero_iff.mp (by omega)
  generalize taken ++ rest = w at h hv
  cases hv with
  | group => exact (Prod.mk.inj (Except.ok.inj ((Rx.groupStep_plain hafter st pos).symm.trans h))).2
  | marked hdigits =>
    have hstep := Rx.groupStep_numbered _ hdigits st pos after
    rw [← List.singleton_append (x := ':'), ← List.append_assoc] at hstep
    have hlength := (Prod.mk.inj (Except.ok.inj (hstep.symm.trans h))).2
    simpa using hlength
  | alternation => exact (Prod.mk.inj (Except.ok.inj h)).2

/-- Behind tokens the text looks like the start of a branch when the last token is one, or when the
backslash of an earlier token makes it look so. -/
theorem opensBefore_iff (h : Runs .initial a after ts t) (hafter : after.head? ≠ some '?') :
    opensBefore t.before = true ↔ (∃ k ∈ ts.getLast?, StartsBranch k.text) ∨ Disguised ts := by
  have hbefore : t.before = (ts.flatMap Token.text).reverse := by
    rw [h.place.1, h.text_eq]
    exact List.append_nil _
  constructor
  · intro hopens
    obtain ⟨u, v, huv, hv⟩ := startsBranch_of_opensBefore hopens
    rw [hbefore, List.reverse_reverse] at huv
    obtain ⟨w, rfl⟩ := hv.backslash
    obtain ⟨front, k, rest, x, y, rfl, htext, hy, hw⟩ := split_text huv (List.cons_ne_nil _ _)
    obtain ⟨y, rfl⟩ : ∃ y', y = '\\' :: y' := by
      cases y with
      | nil => exact absurd rfl hy
      | cons d y => exact ⟨y, by rw [(List.cons.inj hw).1]⟩
    obtain ⟨_, _, m, -, -, hm⟩ := h.split
    obtain ⟨c, more, tail, next, hmore, -, hstep, hrest⟩ := hm.head
    rw [hw] at hv
    cases x with
    | nil =>
      -- the suffix begins with a token
      obtain ⟨rfl, rfl⟩ := List.cons.inj (hmore.symm.trans htext)
      rw [hrest.text_eq] at hv
      cases whole_of_step hstep hv hafter
      cases hrest
      exact .inl ⟨k, by simp, by simpa [hmore] using hv⟩
    | cons d x =>
      -- the suffix begins inside a token, which the backslash ends
      obtain ⟨rfl, rfl⟩ := List.cons.inj (hmore.symm.trans htext)
      have hc : c ≠ '^' := by
        rintro rfl
        have hzero := (step_caret hstep).1
        simp at hzero
      have hclosed := (step_quiet hstep hc).closed
      rw [List.take_left] at hclosed
      have hy : y = [] := by
        obtain hy | hy | hy := hclosed x y rfl
        · exact hy
        · exact absurd (by simp [hy]) hv.no_closer.1
        · exact absurd (by simp [hy]) hv.no_closer.2
      subst hy
      exact .inr ⟨front, k, rest, rfl, List.getLast?_eq_some_iff.mpr ⟨_, htext⟩, hv⟩
  · rintro (⟨k, hk, hbranch⟩ | ⟨front, k, rest, rfl, hlast, hbranch⟩)
    · obtain ⟨front, rfl⟩ := List.getLast?_eq_some_iff.mp hk
      rw [hbefore]
      simpa using opensBefore_of_startsBranch hbranch (front.flatMap Token.text)
    · obtain ⟨x, hx⟩ := List.getLast?_eq_some_iff.mp hlast
      rw [hbefore]
      simpa [hx] using opensBefore_of_startsBranch hbranch (front.flatMap Token.text ++ x)

/-- What is reported about the character at which the token begins, when tokens follow. -/
theorem Runs.mem_issues (h : Runs .initial a [] (ts ++ k :: us) t) (hk : k.text = ['^']) :
    ((ts.flatMap Token.text).length, Issue.unescaped '^') ∈ t.state.issues ↔
      ts ≠ [] ∧ (∀ k ∈ ts.getLast?, ¬ StartsBranch k.text) ∧ ¬ Disguised ts := by
  obtain ⟨b, _, m, rfl, hb, hm⟩ := h.split
  obtain ⟨c, more, rest, next, htext, rfl, hstep, hrest⟩ := hm.head
  obtain ⟨rfl, rfl⟩ := List.cons.inj (htext.symm.trans hk)
  obtain ⟨-, rfl⟩ := step_caret hstep
  have hpos : m.pos = (ts.flatMap Token.text).length := by
    rw [hb.place.2, hb.text_eq]
    exact Nat.zero_add _
  have hzero : m.pos = 0 ↔ ts = [] := by
    rw [hpos, hb.text_eq, List.length_eq_zero_iff]
    exact hb.nil_iff
  have hanchor : (m.pos == 0 || opensBefore m.before) = true ↔
      ¬ (ts ≠ [] ∧ (∀ k ∈ ts.getLast?, ¬ StartsBranch k.text) ∧ ¬ Disguised ts) := by
    rw [Bool.or_eq_true, beq_iff_eq, hzero, opensBefore_iff hb (by simp)]
    simp only [not_and_or, not_not, not_forall, exists_prop, ne_eq]
  obtain ⟨early, hearly, hbelow⟩ := hb.issues
  obtain ⟨late, hlate, habove⟩ := hrest.issues
  have hlate_not : (m.pos, Issue.unescaped '^') ∉ late := fun hmem => by
    have := (habove _ hmem rfl).1
    simp only [Spot.past, List.length_singleton] at this
    omega
  have hearly_not : (m.pos, Issue.unescaped '^') ∉ m.state.issues := fun hmem => by
    rw [hearly] at hmem
    obtain hmem | hmem := List.mem_append.mp hmem
    · exact Nat.lt_irrefl _ (hbelow _ hmem rfl).2
    · cases hmem
  rw [← hpos, hlate, List.mem_append, or_iff_right hlate_not]
  simp only [Spot.past, anchorStep]
  split
  · rename_i hyes
    exact iff_of_false hearly_not (hanchor.mp hyes)
  · rename_i hno
    exact iff_of_true List.mem_cons_self (not_not.mp (mt hanchor.mpr hno))

/-- Anchors are told from literals by tokens: a caret that is a token of its own is reported exactly
when it is neither the first token nor behind one that starts a branch. Only behind tokens that look
like one by the end of an earlier token it is never reported. -/
theorem caret_reported_iff (regexp : List Char) (issues : List (Nat × Issue))
    (h : lint regexp = .ok issues) :
    ∃ ts, tokens regexp = .ok ts ∧ ts.flatMap Token.text = regexp ∧
      ∀ before k after, ts = before ++ k :: after → k.text = ['^'] →
        (¬ Disguised before →
          (((before.flatMap Token.text).length, Issue.unescaped '^') ∈ issues ↔
            before ≠ [] ∧ ∀ t ∈ before.getLast?, ¬ StartsBranch t.text)) ∧
        (Disguised before →
          ((before.flatMap Token.text).length, Issue.unescaped '^') ∉ issues) := by
  obtain ⟨st, hst, rfl⟩ := Rx.map_eq_ok.mp h
  obtain ⟨ts, t, hruns, rfl, hgroups⟩ := Runs.of_lintFrom (s := .initial) hst
  refine ⟨ts, hruns.tokens_eq hgroups, hruns.text_eq, ?_⟩
  rintro before k after rfl hk
  have hmem := hruns.mem_issues hk
  rw [List.mem_mergeSort, List.mem_reverse, hmem]
  tauto

theorem not_disguised (h : ∀ k ∈ ts, k.text.getLast? ≠ some '\\') : ¬ Disguised ts := by
  rintro ⟨front, k, rest, rfl, hlast, -⟩
  exact h k (by simp) hlast

/-- In `\(?3:^a\|b^c\)` the first caret stands behind the start of a branch,
the second one does not. -/
theorem numberedBranch_carets :
    ∃ issues, lint "\\(?3:^a\\|b^c\\)".toList = .ok issues ∧ issues = [(10, .unescaped '^')] ∧
      (5, .unescaped '^') ∉ issues ∧ (10, .unescaped '^') ∈ issues := by
  have hlint : lint "\\(?3:^a\\|b^c\\)".toList = .ok [(10, .unescaped '^')] :=
    Rx.ok_of_toOption (by cbv)
  have htokens : tokens "\\(?3:^a\\|b^c\\)".toList
      = .ok [⟨"\\(?3:".toList, 0⟩, ⟨['^'], 1⟩, ⟨['a'], 1⟩, ⟨"\\|".toList, 1⟩,
        ⟨['b'], 1⟩, ⟨['^'], 1⟩, ⟨['c'], 1⟩, ⟨"\\)".toList, 1⟩] := Rx.ok_of_toOption (by cbv)
  obtain ⟨ts, hts, -, hcarets⟩ := caret_reported_iff _ _ hlint
  cases htokens.symm.trans hts
  refine ⟨_, hlint, rfl, ?_, ?_⟩
  · have hfirst := (hcarets [⟨"\\(?3:".toList, 0⟩] _ _ rfl rfl).1 (not_disguised (by decide))
    refine mt hfirst.mp fun h => h.2 _ rfl ?_
    have hdigit : Text.isDigit '3' = true := Rx.isDigit_of_isDigitOf (by decide)
    exact @StartsBranch.marked ['3'] (by simpa using hdigit)
  · have hsecond := (hcarets [⟨"\\(?3:".toList, 0⟩, ⟨['^'], 1⟩, ⟨['a'], 1⟩, ⟨"\\|".toList, 1⟩,
      ⟨['b'], 1⟩] _ _ rfl rfl).1 (not_disguised (by decide))
    refine hsecond.mpr ⟨by simp, ?_⟩
    rintro k hk h
    cases hk
    obtain ⟨_, hbackslash⟩ := h.backslash
    cases hbackslash

/-- In `\\(^` the caret stands behind a parenthesis, which the backslash
before it does not quote. -/
theorem disguisedParenthesis_unreported :
    lint "\\\\(^".toList = .ok [] ∧
      tokens "\\\\(^".toList = .ok [⟨"\\\\".toList, 0⟩, ⟨['('], 0⟩, ⟨['^'], 0⟩] ∧
      ¬ StartsBranch ['('] := by
  refine ⟨Rx.ok_of_toOption (by cbv), Rx.ok_of_toOption (by cbv), fun h => ?_⟩
  obtain ⟨_, hbackslash⟩ := h.backslash
  cases hbackslash

end PatternLint.Pattern.Regexp
