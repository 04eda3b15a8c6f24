import PatternLint.Pattern.Regexp

/-! The tokens of a regexp, as the steps of the linter cut them, and runs of the linter
over a part of a regexp. -/

namespace PatternLint.Pattern.Regexp

/-- A token, and the number of groups that are open before it. -/
structure Token where
  text : List Char
  depth : Nat
  deriving Repr, DecidableEq

/-- The tokens from a place on, if the linter gets to the end and finds all groups closed there;
`before` is the text before the place in reverse. -/
def tokensFrom (st : State) (before : List Char) (pos : Nat) (cs : List Char) :
    Except ParseFault (List Token) :=
  match _h : cs with
  | [] =>
    match st.groups with
    | [] => .ok []
    | innermost :: _ => fail innermost .openGroup
  | c :: rest =>
    match step st before pos c rest with
    | .error f => .error f
    | .ok (next, n) =>
      (tokensFrom next ((rest.take n).reverse ++ c :: before) (pos + 1 + n) (rest.drop n)).map
        (⟨c :: rest.take n, st.groups.length⟩ :: ·)
termination_by cs.length
decreasing_by simp only [List.length_drop, List.length_cons]; omega

def tokens (regexp : List Char) : Except ParseFault (List Token) :=
  tokensFrom .initial [] 0 regexp

/-- Where the linter is: its state, the text before in reverse, and the place. -/
structure Spot where
  state : State
  before : List Char
  pos : Nat

def Spot.initial : Spot :=
  ⟨.initial, [], 0⟩

/-- Behind a text that leaves the linter in some state. -/
def Spot.past (s : Spot) (text : List Char) (st : State) : Spot :=
  ⟨st, text.reverse ++ s.before, s.pos + text.length⟩

/-- The linter goes over exactly this text, whatever its tokens do to its state, when
something comes after it. -/
inductive Runs : Spot → List Char → List Char → List Token → Spot → Prop
  | nil {s : Spot} {after : List Char} : Runs s [] after [] s
  | cons {s t : Spot} {c : Char} {more rest after : List Char} {st : State} {ts : List Token}
      (hstep : step s.state s.before s.pos c (more ++ (rest ++ after)) = .ok (st, more.length))
      (h : Runs (s.past (c :: more) st) rest after ts t) :
      Runs s (c :: more ++ rest) after (⟨c :: more, s.state.groups.length⟩ :: ts) t

namespace Runs

variable {s t u : Spot} {a b after : List Char} {ts us : List Token}

theorem token {c : Char} {more : List Char} {st : State}
    (h : step s.state s.before s.pos c (more ++ after) = .ok (st, more.length)) :
    Runs s (c :: more) after [⟨c :: more, s.state.groups.length⟩] (s.past (c :: more) st) := by
  have hrun : Runs s (c :: more ++ []) after _ _ := .cons (by rwa [List.nil_append]) .nil
  rwa [List.append_nil] at hrun

theorem append (ha : Runs s a (b ++ after) ts t) (hb : Runs t b after us u) :
    Runs s (a ++ b) after (ts ++ us) u := by
  generalize hrest : b ++ after = rest at ha
  induction ha with
  | nil => exact hb
  | cons hstep _ ih =>
    subst hrest
    rw [List.append_assoc]
    refine .cons ?_ (ih hb rfl)
    simpa using hstep

theorem text_eq (h : Runs s a after ts t) : ts.flatMap Token.text = a := by
  induction h with
  | nil => rfl
  | cons _ _ ih => rw [List.flatMap_cons, ih]

theorem ne_nil (h : Runs s a after ts t) (ha : a ≠ []) : ts ≠ [] := by
  cases h with
  | nil => exact absurd rfl ha
  | cons => exact List.cons_ne_nil _ _

theorem lintFrom_eq (h : Runs s a after ts t) :
    lintFrom s.state s.before s.pos (a ++ after) = lintFrom t.state t.before t.pos after := by
  induction h with
  | nil => rfl
  | cons hstep _ ih =>
    rw [← ih, List.append_assoc, List.cons_append, lintFrom, hstep]
    simp [Spot.past, Nat.add_assoc, Nat.add_comm 1]

theorem tokensFrom_eq (h : Runs s a after ts t) :
    tokensFrom s.state s.before s.pos (a ++ after) =
      (tokensFrom t.state t.before t.pos after).map (ts ++ ·) := by
  induction h with
  | @nil s after =>
    rw [List.nil_append]
    cases tokensFrom s.state s.before s.pos after <;> rfl
  | @cons s t c more rest after st ts hstep _ ih =>
    rw [List.append_assoc, List.cons_append, tokensFrom, hstep]
    simp only [Spot.past, List.length_cons, List.reverse_cons, List.append_assoc,
      List.singleton_append] at ih
    simp only [List.take_left, List.drop_left]
    rw [Nat.add_assoc, Nat.add_comm 1, ih]
    cases tokensFrom t.state t.before t.pos after <;> rfl

/-- Over a whole regexp, with all groups closed at the end. -/
theorem tokens_eq (h : Runs .initial a [] ts t) (ht : t.state.groups = []) : tokens a = .ok ts := by
  have hrun := h.tokensFrom_eq
  rw [List.append_nil] at hrun
  refine hrun.trans ?_
  rw [tokensFrom, ht]
  exact congrArg Except.ok (List.append_nil ts)

theorem lint_eq (h : Runs .initial a [] ts t) (ht : t.state.groups = []) :
    lint a = .ok (t.state.issues.reverse.mergeSort fun a b => a.1 ≤ b.1) := by
  have hrun := h.lintFrom_eq
  rw [List.append_nil, lintFrom, ht] at hrun
  rw [lint]
  exact congrArg (Except.map _) hrun

end Runs

/-- All issues that are new in the second state are of some kind. -/
def Reports (may : Issue → Prop) (st st' : State) : Prop :=
  ∃ new, st'.issues = new ++ st.issues ∧ ∀ i ∈ new, may i.2

namespace Reports

variable {may : Issue → Prop} {st st' st'' : State}

theorem of_eq (h : st'.issues = st.issues) : Reports may st st' :=
  ⟨[], h, nofun⟩

theorem one {pos : Nat} {issue : Issue} (h : may issue)
    (heq : st'.issues = (pos, issue) :: st.issues) : Reports may st st' :=
  ⟨[(pos, issue)], heq, by simpa using h⟩

theorem trans (h : Reports may st st') (h' : Reports may st' st'') : Reports may st st'' := by
  obtain ⟨new, hnew, hmay⟩ := h
  obtain ⟨new', hnew', hmay'⟩ := h'
  refine ⟨new' ++ new, by rw [hnew', hnew, List.append_assoc], fun i hi => ?_⟩
  exact (List.mem_append.mp hi).elim (hmay' i) (hmay i)

/-- The issues of a regexp that the linter goes over from the start. -/
theorem of_initial (h : Reports may .initial st) : ∀ i ∈ st.issues, may i.2 := by
  obtain ⟨new, hnew, hmay⟩ := h
  rw [hnew]
  simpa [State.initial] using hmay

end Reports

/-- The linter goes over exactly this text, closes what it opens, and reports nothing else. -/
structure Goes (may : Issue → Prop) (s : Spot) (text after : List Char) (ts : List Token)
    (t : Spot) : Prop where
  runs : Runs s text after ts t
  groups : t.state.groups = s.state.groups
  reports : Reports may s.state t.state
  depth : ∀ k ∈ ts, s.state.groups.length ≤ k.depth

namespace Goes

variable {may : Issue → Prop} {s t u : Spot} {a b after : List Char} {ts us : List Token}

theorem nil : Goes may s [] after [] s :=
  ⟨.nil, rfl, .of_eq rfl, nofun⟩

theorem token {c : Char} {more : List Char} {st : State}
    (h : step s.state s.before s.pos c (more ++ after) = .ok (st, more.length))
    (hgroups : st.groups = s.state.groups) (hreports : Reports may s.state st) :
    Goes may s (c :: more) after [⟨c :: more, s.state.groups.length⟩] (s.past (c :: more) st) :=
  ⟨.token h, hgroups, hreports, by simp⟩

theorem append (ha : Goes may s a (b ++ after) ts t) (hb : Goes may t b after us u) :
    Goes may s (a ++ b) after (ts ++ us) u := by
  refine ⟨ha.runs.append hb.runs, hb.groups.trans ha.groups, ha.reports.trans hb.reports, ?_⟩
  intro k hk
  obtain hk | hk := List.mem_append.mp hk
  · exact ha.depth k hk
  · exact ha.groups ▸ hb.depth k hk

end Goes

end PatternLint.Pattern.Regexp
