import Mathlib.Data.List.Basic
import PatternLint.Proofs.RepetitionMarks

/-! Phrases, the texts that regexps are put together from. What a phrase of some precedence means
does not depend on what stands around it: the linter goes over it token by token, its groups are
balanced, and only what its precedence allows shows outside of them. -/

namespace PatternLint.Rx

open Pattern.Regexp

/-- Wherever the text stands, it is one token, which neither opens nor closes anything
and leaves this operand. -/
structure OneToken (may : Issue → Prop) (operand : Operand) (text : List Char) : Prop where
  goes : ∀ s after, ∃ t, Goes may s text after [⟨text, s.state.groups.length⟩] t ∧
    t.state.operand = operand
  ne_nil : text ≠ []
  head : text.head? ≠ some '?'
  plain : text ≠ ['\\', '|']

/-- What opens a group. -/
inductive Opening : List Char → Prop
  | plain : Opening ['\\', '(']
  | shy : Opening ['\\', '(', '?', ':']
  | numbered {n : Nat} {number : List Char} (h : Counts n number) :
      Opening ('\\' :: '(' :: '?' :: (number ++ [':']))

/-- The texts of each precedence, and whether they open with a line start or close with a line
end. Line starts and line ends need `anchored`; inside a sequence they may be reported. -/
inductive Phrase (may : Issue → Prop) (anchored : Prop) :
    Precedence → Bool → Bool → List Char → Prop
  | empty : Phrase may anchored .seq false false []
  | bare {operand : Operand} {text : List Char} (h : OneToken may operand text) :
      Phrase may anchored .seq false false text
  | token {operand : Operand} {text : List Char} (h : OneToken may operand text)
      (hoperand : Repeatable may operand) : Phrase may anchored .atom false false text
  | lineStart (h : anchored) : Phrase may anchored .seq true false ['^']
  | lineEnd (h : anchored) : Phrase may anchored .seq false true ['$']
  | loose {text : List Char} (h : Phrase may anchored .atom false false text) :
      Phrase may anchored .seq false false text
  | append {opens inner inner' closes : Bool} {a b : List Char}
      (ha : Phrase may anchored .seq opens inner a) (hb : Phrase may anchored .seq inner' closes b)
      (ha' : a ≠ []) (hb' : b ≠ []) (hinner : inner = true → may (.unescaped '$'))
      (hinner' : inner' = true → may (.unescaped '^')) :
        Phrase may anchored .seq opens closes (a ++ b)
  | group {p : Precedence} {opens closes : Bool} {opening text : List Char}
      (hopening : Opening opening) (h : Phrase may anchored p opens closes text) :
      Phrase may anchored .atom false false (opening ++ (text ++ ['\\', ')']))
  | repeated {text mark : List Char} (h : Phrase may anchored .atom false false text)
      (hmark : Mark mark) : Phrase may anchored .seq false false (text ++ mark)
  | choice {p q : Precedence} {opens inner inner' closes : Bool} {a b : List Char}
      (ha : Phrase may anchored p opens inner a) (hb : Phrase may anchored q inner' closes b) :
      Phrase may anchored .alt opens closes (a ++ (['\\', '|'] ++ b))

/-- A single token, or a group from its opening to the parenthesis that closes it. -/
inductive Whole (depth : Nat) : List Token → Prop
  | token (text : List Char) : Whole depth [⟨text, depth⟩]
  | group {opening : List Char} {inner : List Token} (hopening : Opening opening)
      (hinner : ∀ k ∈ inner, depth < k.depth) :
      Whole depth (⟨opening, depth⟩ :: (inner ++ [⟨['\\', ')'], depth + 1⟩]))

/-- What the linter finds going over a phrase. -/
structure Found (may : Issue → Prop) (p : Precedence) (opens closes : Bool) (s : Spot)
    (text after : List Char) (ts : List Token) (t : Spot) : Prop extends
    Goes may s text after ts t where
  bars : p ≠ .alt → ∀ k ∈ ts, k.depth = s.state.groups.length → k.text ≠ ['\\', '|']
  whole : p = .atom → Whole s.state.groups.length ts
  operand : p = .atom → Repeatable may t.state.operand
  first : opens = true → ts.head? = some ⟨['^'], s.state.groups.length⟩
  last : closes = true → ts.getLast? = some ⟨['$'], s.state.groups.length⟩

/-- A place where a phrase may stand. -/
structure Fits (may : Issue → Prop) (p : Precedence) (opens closes : Bool) (s : Spot)
    (after : List Char) : Prop where
  free : p ≠ .atom → after.head? ≠ some '?'
  start : opens = true → s.pos = 0 ∨ opensBefore s.before = true ∨ may (.unescaped '^')
  stop : closes = true → closesAfter after = true ∨ may (.unescaped '$')

variable {may : Issue → Prop} {anchored : Prop} {p q : Precedence}
  {opens closes inner inner' : Bool} {a b text after mark opening : List Char} {s t u : Spot}
  {ts us : List Token}

/-! ### Phrases as texts -/

theorem Opening.head (h : Opening opening) : ∃ more, opening = '\\' :: '(' :: more := by
  cases h <;> exact ⟨_, rfl⟩

theorem Phrase.atom_ne_nil (h : Phrase may anchored .atom opens closes text) : text ≠ [] := by
  cases h with
  | token h _ => exact h.ne_nil
  | group hopening =>
    obtain ⟨more, rfl⟩ := hopening.head
    simp

theorem Phrase.atom_flags (h : Phrase may anchored .atom opens closes text) :
    opens = false ∧ closes = false := by
  cases h <;> exact ⟨rfl, rfl⟩

theorem Phrase.loosen (h : Phrase may anchored .atom opens closes text) :
    Phrase may anchored .seq opens closes text := by
  obtain ⟨rfl, rfl⟩ := h.atom_flags
  exact .loose h

/-- Nothing makes an operator before a phrase reluctant. -/
theorem Phrase.head (h : Phrase may anchored p opens closes text) : text.head? ≠ some '?' := by
  induction h with
  | empty => simp
  | bare h => exact h.head
  | token h _ => exact h.head
  | lineStart => simp
  | lineEnd => simp
  | loose _ ih => exact ih
  | append _ _ ha' _ _ _ iha _ => rwa [List.head?_append, List.head?_eq_some_head ha'] at *
  | group hopening _ _ =>
    obtain ⟨more, rfl⟩ := hopening.head
    simp
  | repeated h _ ih => rwa [List.head?_append, List.head?_eq_some_head h.atom_ne_nil] at *
  | @choice p q opens inner inner' closes a b _ _ iha _ =>
    cases a with
    | nil => simp
    | cons => simpa using iha

/-- Without line starts and line ends, no phrase opens or closes with one. -/
theorem Phrase.unanchored (h : Phrase may anchored p opens closes text) (hno : ¬ anchored) :
    opens = false ∧ closes = false := by
  induction h with
  | lineStart h => exact absurd h hno
  | lineEnd h => exact absurd h hno
  | append _ _ _ _ _ _ iha ihb => exact ⟨iha.1, ihb.2⟩
  | choice _ _ iha ihb => exact ⟨iha.1, ihb.2⟩
  | _ => exact ⟨rfl, rfl⟩

/-! ### Going over a phrase -/

theorem found_empty : Found may .seq false false s [] after [] s :=
  ⟨.nil, nofun, nofun, nofun, nofun, nofun⟩

theorem found_token {operand : Operand} (h : OneToken may operand text)
    (hoperand : p = .atom → Repeatable may operand) :
    ∃ t, Found may p false false s text after [⟨text, s.state.groups.length⟩] t := by
  obtain ⟨t, hgoes, heq⟩ := h.goes s after
  refine ⟨t, hgoes, fun _ k hk _ => ?_, fun _ => .token text, fun hp => heq ▸ hoperand hp, nofun,
    nofun⟩
  rw [List.mem_singleton.mp hk]
  exact h.plain

theorem found_lineStart (h : Fits may .seq true false s after) :
    ∃ t, Found may .seq true false s ['^'] after [⟨['^'], s.state.groups.length⟩] t := by
  have hstep : step s.state s.before s.pos '^' ([] ++ after)
      = .ok (anchorStep s.state s.pos '^' (s.pos == 0 || opensBefore s.before),
        ([] : List Char).length) := rfl
  refine ⟨_, ⟨.token hstep ?_ ?_, by simp, nofun, nofun, fun _ => rfl, nofun⟩⟩
  · unfold anchorStep
    split <;> rfl
  · unfold anchorStep
    split
    · exact .of_eq rfl
    · rename_i hno
      simp only [Bool.or_eq_true, beq_iff_eq, not_or] at hno
      have hmay := ((h.start rfl).resolve_left hno.1).resolve_left hno.2
      exact .one hmay rfl

theorem found_lineEnd (h : Fits may .seq false true s after) :
    ∃ t, Found may .seq false true s ['$'] after [⟨['$'], s.state.groups.length⟩] t := by
  have hstep : step s.state s.before s.pos '$' ([] ++ after)
      = .ok (anchorStep s.state s.pos '$' (closesAfter after), ([] : List Char).length) := rfl
  refine ⟨_, ⟨.token hstep ?_ ?_, by simp, nofun, nofun, nofun, fun _ => rfl⟩⟩
  · unfold anchorStep
    split <;> rfl
  · unfold anchorStep
    split
    · exact .of_eq rfl
    · rename_i hno
      exact .one ((h.stop rfl).resolve_left hno) rfl

theorem Found.append (ha : Found may .seq opens inner s a (b ++ after) ts t)
    (hb : Found may .seq inner' closes t b after us u) (ha' : a ≠ []) (hb' : b ≠ []) :
    Found may .seq opens closes s (a ++ b) after (ts ++ us) u := by
  have hts := ha.runs.ne_nil ha'
  have hus := hb.runs.ne_nil hb'
  refine ⟨ha.toGoes.append hb.toGoes, fun hp k hk hdepth => ?_, nofun, nofun,
    fun h => ?_, fun h => ?_⟩
  · obtain hk | hk := List.mem_append.mp hk
    · exact ha.bars hp k hk hdepth
    · exact hb.bars hp k hk (ha.groups ▸ hdepth)
  · rw [List.head?_append, ha.first h, Option.some_or]
  · rw [List.getLast?_append, hb.last h, Option.some_or, ha.groups]

/-- The state behind the opening of a group. -/
def State.opened (st : State) (pos : Nat) : State :=
  { st with groups := pos :: st.groups, operand := .nothing }

theorem groupStep_numbered (number : List Char) (hdigits : ∀ c ∈ number, Text.isDigit c = true)
    (st : State) (pos : Nat) (rest : List Char) :
    groupStep st pos ('?' :: (number ++ ':' :: rest)) =
      .ok (State.opened st pos, number.length + 3) := by
  have htake : (number ++ ':' :: rest).takeWhile Text.isDigit = number := by
    rw [List.takeWhile_append_of_pos hdigits, List.takeWhile_cons, if_neg (by decide +kernel),
      List.append_nil]
  simp [groupStep, htake, State.opened]

theorem groupStep_plain {rest : List Char} (h : rest.head? ≠ some '?') (st : State) (pos : Nat) :
    groupStep st pos rest = .ok (State.opened st pos, 1) := by
  unfold groupStep
  split
  · exact absurd rfl h
  · rfl

/-- The opening of a group is a token, behind which a line may start. -/
theorem Opening.step_eq (h : Opening opening) (hrest : after.head? ≠ some '?') (st : State)
    (before : List Char) (pos : Nat) : ∃ more, opening = '\\' :: more ∧
      step st before pos '\\' (more ++ after) = .ok (State.opened st pos, more.length) := by
  cases h with
  | plain => exact ⟨_, rfl, by simpa [step, escapeStep] using groupStep_plain hrest st pos⟩
  | shy =>
    have hstep := groupStep_numbered [] (by simp) st pos after
    exact ⟨_, rfl, by simpa [step, escapeStep] using hstep⟩
  | numbered h =>
    have hstep := groupStep_numbered _ h.digits st pos after
    exact ⟨_, rfl, by simpa [step, escapeStep] using hstep⟩

theorem opensBefore_numbered (number : List Char) (hdigits : ∀ c ∈ number, Text.isDigit c = true)
    (before : List Char) :
    opensBefore (':' :: (number ++ '?' :: '(' :: '\\' :: before)) = true := by
  have hmark : '?' ∉ number := fun hmem => absurd (hdigits _ hmem) (by decide +kernel)
  have hfind : Text.find? ['?', '(', '\\'] (number ++ '?' :: '(' :: '\\' :: before)
      = some number.length := by
    simpa [Text.find?] using Text.findFrom_append ['(', '\\'] before 0 hmark
  simpa [opensBefore, hfind] using hdigits

theorem Opening.opensBefore (h : Opening opening) (before : List Char) :
    opensBefore (opening.reverse ++ before) = true := by
  cases h with
  | plain => rfl
  | shy => exact opensBefore_numbered [] (by simp) before
  | @numbered n number h =>
    have hopens := opensBefore_numbered number.reverse (by simpa using h.digits) before
    simpa using hopens

theorem found_close {outer : List Nat} {n : Nat} (hs : s.state.groups = n :: outer)
    (after : List Char) :
    ∃ t, Runs s ['\\', ')'] after [⟨['\\', ')'], outer.length + 1⟩] t ∧
      t.state = { s.state with groups := outer, operand := .item } := by
  have hstep : step s.state s.before s.pos '\\' ([')'] ++ after)
      = .ok ({ s.state with groups := outer, operand := .item }, [')'].length) := by
    simp [step, escapeStep, hs]
  have hrun := Runs.token hstep
  rw [hs, List.length_cons] at hrun
  exact ⟨_, hrun, rfl⟩

/-- A group around a phrase. -/
theorem found_group (hopening : Opening opening) (hhead : text.head? ≠ some '?')
    (htext : ∀ s after, Fits may p opens closes s after →
      ∃ ts t, Found may p opens closes s text after ts t) :
    ∃ ts t, Found may .atom false false s (opening ++ (text ++ ['\\', ')'])) after ts t := by
  have hrest : (text ++ ['\\', ')'] ++ after).head? ≠ some '?' := by
    cases text with
    | nil => simp
    | cons => simpa using hhead
  obtain ⟨more, rfl, hstep⟩ := hopening.step_eq hrest s.state s.before s.pos
  have hopen := Runs.token hstep
  obtain ⟨ts, t, hfound⟩ := htext (s.past ('\\' :: more) (State.opened s.state s.pos))
    (['\\', ')'] ++ after) ⟨fun _ => by simp, fun _ => .inr (.inl (hopening.opensBefore _)),
      fun _ => .inl rfl⟩
  have hgroups : t.state.groups = s.pos :: s.state.groups := hfound.groups
  obtain ⟨u, hclose, hu⟩ := found_close hgroups after
  have hrun := hopen.append (by simpa using hfound.runs.append hclose)
  have hdepth : ∀ k ∈ ts, s.state.groups.length < k.depth := hfound.depth
  refine ⟨_, u, ⟨⟨hrun, by rw [hu], ?_, ?_⟩, ?_, fun _ => .group hopening hdepth,
    fun _ => .inl (by rw [hu]), nofun, nofun⟩⟩
  · obtain ⟨new, hnew, hmay⟩ := hfound.reports
    exact ⟨new, by rw [hu]; exact hnew, hmay⟩
  · simp only [List.forall_mem_append, List.forall_mem_singleton]
    exact ⟨Nat.le_refl _, fun k hk => Nat.le_of_lt (hdepth k hk), Nat.le_succ _⟩
  · -- Only the opening stands outside of the group.
    obtain ⟨more', hmore⟩ := hopening.head
    simp only [List.forall_mem_append, List.forall_mem_singleton, hmore]
    exact fun _ => ⟨by simp, fun k hk heq => absurd (hdepth k hk) (by omega), by simp⟩

theorem Found.repeated (hs : Found may .atom false false s a (mark ++ after) ts t)
    (hmark : Mark mark) (hafter : after.head? ≠ some '?') :
    ∃ us u, Found may .seq false false s (a ++ mark) after us u := by
  obtain ⟨us, u, hgoes, hbars⟩ := hmark.goes (hs.operand rfl) hafter
  refine ⟨_, u, hs.toGoes.append hgoes, fun _ k hk hdepth => ?_, nofun, nofun, nofun, nofun⟩
  obtain hk | hk := List.mem_append.mp hk
  · exact hs.bars nofun k hk hdepth
  · exact hbars k hk

theorem goes_bar (may : Issue → Prop) (s : Spot) (after : List Char) :
    Goes may s ['\\', '|'] after [⟨['\\', '|'], s.state.groups.length⟩]
      (s.past ['\\', '|'] (s.state.setOperand .nothing)) :=
  .token (by rfl) rfl (.of_eq rfl)

/-- A choice of two phrases. -/
theorem Found.choice (ha : Found may p opens inner s a (['\\', '|'] ++ (b ++ after)) ts t)
    (hb : ∀ s, opensBefore s.before = true → ∃ us u, Found may q inner' closes s b after us u) :
    ∃ us u, Found may .alt opens closes s (a ++ (['\\', '|'] ++ b)) after us u := by
  have hbar := goes_bar may t (b ++ after)
  obtain ⟨us, u, hfound⟩ := hb (t.past ['\\', '|'] (t.state.setOperand .nothing)) rfl
  have hgoes : Goes may s (a ++ (['\\', '|'] ++ b)) after _ u :=
    .append (by rw [List.append_assoc]; exact ha.toGoes) (hbar.append hfound.toGoes)
  refine ⟨_, u, hgoes, nofun, nofun, nofun, fun h => ?_, fun h => ?_⟩
  · rw [List.head?_append, ha.first h, Option.some_or]
  · have hgroups : s.state.groups.length = t.state.groups.length := by rw [ha.groups]
    rw [List.getLast?_append, List.getLast?_append, hfound.last h, hgroups]
    rfl

/-- The linter goes over a phrase wherever it fits. -/
theorem Phrase.found (h : Phrase may anchored p opens closes text) (s : Spot) (after : List Char)
    (hfits : Fits may p opens closes s after) :
    ∃ ts t, Found may p opens closes s text after ts t := by
  induction h generalizing s after with
  | empty => exact ⟨_, _, found_empty⟩
  | bare h =>
    obtain ⟨t, hfound⟩ := found_token (p := .seq) h nofun
    exact ⟨_, t, hfound⟩
  | token h hoperand =>
    obtain ⟨t, hfound⟩ := found_token h fun _ => hoperand
    exact ⟨_, t, hfound⟩
  | lineStart =>
    obtain ⟨t, hfound⟩ := found_lineStart hfits
    exact ⟨_, t, hfound⟩
  | lineEnd =>
    obtain ⟨t, hfound⟩ := found_lineEnd hfits
    exact ⟨_, t, hfound⟩
  | loose _ ih =>
    obtain ⟨ts, t, hfound⟩ := ih s after ⟨nofun, nofun, nofun⟩
    exact ⟨ts, t, hfound.toGoes, fun _ => hfound.bars nofun, nofun, nofun, nofun, nofun⟩
  | @append opens inner inner' closes a b _ hb ha' hb' hinner hinner' iha ihb =>
    have hhead : (b ++ after).head? ≠ some '?' := by
      rw [List.head?_append_of_ne_nil _ hb']
      exact hb.head
    obtain ⟨ts, t, hts⟩ :=
      iha s (b ++ after) ⟨fun _ => hhead, hfits.start, fun h => .inr (hinner h)⟩
    obtain ⟨us, u, hus⟩ := ihb t after ⟨hfits.free, fun h => .inr (.inr (hinner' h)), hfits.stop⟩
    exact ⟨_, u, hts.append hus ha' hb'⟩
  | group hopening h ih => exact found_group hopening h.head fun s after hs => ih s after hs
  | repeated _ hmark ih =>
    obtain ⟨ts, t, hfound⟩ := ih s _ ⟨nofun, nofun, nofun⟩
    exact hfound.repeated hmark (hfits.free nofun)
  | choice _ _ iha ihb =>
    obtain ⟨ts, t, hfound⟩ := iha s (['\\', '|'] ++ (_ ++ after))
      ⟨fun _ => by simp, hfits.start, fun _ => .inl rfl⟩
    exact hfound.choice fun s hs =>
      ihb s after ⟨fun _ => hfits.free nofun, fun _ => .inr (.inl hs), hfits.stop⟩

/-- A regexp that is a phrase. -/
theorem Phrase.found_alone (h : Phrase may anchored p opens closes text) :
    ∃ ts t, Found may p opens closes .initial text [] ts t :=
  h.found .initial [] ⟨fun _ => nofun, fun _ => .inl rfl, fun _ => .inl rfl⟩

theorem Found.tokens_eq (h : Found may p opens closes .initial text [] ts t) :
    tokens text = .ok ts :=
  h.runs.tokens_eq h.groups

/-- The linter accepts a regexp that is a phrase, and reports nothing else than it may. -/
theorem Phrase.lint_eq (h : Phrase may anchored p opens closes text) :
    ∃ issues, lint text = .ok issues ∧ ∀ i ∈ issues, may i.2 := by
  obtain ⟨ts, t, hfound⟩ := h.found_alone
  refine ⟨_, hfound.runs.lint_eq hfound.groups, fun i hi => ?_⟩
  rw [List.mem_mergeSort, List.mem_reverse] at hi
  exact hfound.reports.of_initial i hi

end PatternLint.Rx
