import PatternLint.Pattern.SkipSet
import PatternLint.Proofs.RegexpTokens
import PatternLint.Proofs.SetIssues

/-! Sets of characters, ranges and hyphens. A skip set of these has the issues of the same set
between brackets, where every place is one further to the right. -/

namespace PatternLint.Pattern

/-- The character has no meaning of its own in either kind of set, unless it is a hyphen. -/
def IsPlain (c : Char) : Prop :=
  c ∉ ['\\', '[', ']', '^']

namespace SkipSet

open Regexp (Element element? setFrom)

variable {c : Char} {rest cs : List Char} {e : Element} {n pos : Nat} {st : State}

/-- The state behind an element that is read like one between brackets. -/
def State.pass (st : State) (pos : Nat) (e : Element) : State :=
  { st with
    seen := e.onto st.seen
    issues := (e.issue? st.seen).toList.map (fun i => (pos, .set i)) ++ st.issues }

theorem State.add_eq {s : Span} (h : ¬ s.hi < s.lo) : st.add pos s = st.pass pos (.span s) := by
  simp only [State.add, State.pass, Element.onto, Element.issue?, if_neg h]
  cases clash? st.seen s <;> rfl

theorem charAt_plain (hc : IsPlain c) (st : State) (pos : Nat) (rest : List Char) :
    charAt st pos c rest = .ok (c, 0, st) := by
  have hne : c ≠ '\\' := fun heq => hc (by simp [heq])
  simp [charAt, hne]

/-- A range reads the same in both kinds of set. -/
theorem element_range {x : Char} {after : List Char} (hc : IsPlain c) (hx : IsPlain x) :
    element? c ('-' :: x :: after ++ [']']) = some (.span ⟨c, x⟩, 2) ∧
      ∀ st pos, element st pos c ('-' :: x :: after) = .ok (st.pass pos (.span ⟨c, x⟩), 2) := by
  have hopen : c ≠ '[' := fun heq => hc (by simp [heq])
  have hclose : x ≠ ']' := fun heq => hx (by simp [heq])
  refine ⟨by simp [element?, Regexp.className?, Regexp.range?, hopen, hclose], fun st pos => ?_⟩
  simp only [element, charAt_plain hc, charAt_plain hx, bind, Except.bind, List.drop_zero]
  by_cases hrev : x < c
  · simp only [if_pos hrev, State.pass, Element.onto, Element.issue?]
    cases reversed? ⟨c, x⟩ <;> rfl
  · rw [if_neg hrev, State.add_eq hrev]
    rfl

/-- What follows is no hyphen with an end of a range behind it. -/
theorem range?_of_no_end (hno : ∀ x after, rest ≠ '-' :: x :: after) :
    Regexp.range? (c :: (rest ++ [']'])) = none := by
  match rest with
  | [] => rfl
  | [x] =>
    unfold Regexp.range?
    grind
  | x :: y :: after =>
    have hx : x ≠ '-' := fun heq => hno y after (heq ▸ rfl)
    unfold Regexp.range?
    grind

/-- So does a character on its own; a hyphen at the end makes no range of it. -/
theorem element_single (hc : IsPlain c) (hno : ∀ x after, rest ≠ '-' :: x :: after) :
    element? c (rest ++ [']']) = some (.span (.single c), 0) ∧
      ∀ st pos, element st pos c rest = .ok (st.pass pos (.span (.single c)), 0) := by
  have hopen : c ≠ '[' := fun heq => hc (by simp [heq])
  refine ⟨by simp [element?, Regexp.className?, hopen, range?_of_no_end hno], fun st pos => ?_⟩
  have hadd : st.add pos (.single c) = st.pass pos (.span (.single c)) :=
    State.add_eq (Char.lt_irrefl c)
  rw [← hadd]
  simp only [element, charAt_plain hc, bind, Except.bind, List.drop_zero]
  rfl

theorem element_plain (hc : IsPlain c) (hrest : ∀ x ∈ rest, IsPlain x) :
    ∃ e n, n ≤ rest.length ∧ element? c (rest ++ [']']) = some (e, n) ∧
      ∀ st pos, element st pos c rest = .ok (st.pass pos e, n) := by
  by_cases hrange : ∃ x after, rest = '-' :: x :: after
  · obtain ⟨x, after, rfl⟩ := hrange
    obtain ⟨he, hstep⟩ := element_range hc (hrest x (by simp))
    exact ⟨_, 2, by simp, he, hstep⟩
  · obtain ⟨he, hstep⟩ := element_single hc fun x after heq => hrange ⟨x, after, heq⟩
    exact ⟨_, 0, Nat.zero_le _, he, hstep⟩

theorem className?_plain (hc : IsPlain c) (rest : List Char) :
    Regexp.className? (c :: rest) = none := by
  have hopen : c ≠ '[' := fun heq => hc (by simp [heq])
  simp [Regexp.className?, hopen]

/-- From one place on, both linters find the same. -/
theorem scans_agree (st : State) (pos : Nat) (cs : List Char) (hcs : ∀ x ∈ cs, IsPlain x)
    (origin : Nat) (first : Bool) (issues : List (Nat × Regexp.Issue))
    (hfirst : first = true → cs ≠ []) :
    ∃ (found : List (Nat × SetIssue)) (seen : Array Span),
      lintFrom st pos cs
        = .ok ⟨seen, st.classes, found.map (fun i => (i.1, .set i.2)) ++ st.issues⟩ ∧
      setFrom origin (pos + 1) first st.seen issues (cs ++ [']'])
        = .ok (found.map (fun i => (i.1 + 1, .set i.2)) ++ issues, pos + cs.length + 2) := by
  match cs with
  | [] =>
    have hlater : first = false := by simpa using hfirst
    exact ⟨[], st.seen, by simp [lintFrom], by simp [setFrom, hlater]⟩
  | c :: rest =>
    obtain ⟨hc, hrest⟩ := List.forall_mem_cons.mp hcs
    obtain ⟨e, n, hn, he, hstep⟩ := element_plain hc hrest
    have hclose : c ≠ ']' := fun heq => hc (by simp [heq])
    obtain ⟨found, seen, hskip, hset⟩ := scans_agree (st.pass pos e) (pos + 1 + n) (rest.drop n)
      (fun x hx => hrest x (List.mem_of_mem_drop hx)) origin false
      ((e.issue? st.seen).toList.map (fun i => (pos + 1, .set i)) ++ issues) (by simp)
    refine ⟨found ++ (e.issue? st.seen).toList.map fun i => (pos, i), seen, ?_, ?_⟩
    · rw [lintFrom, className?_plain hc]
      simp only [hstep, hskip]
      simp [State.pass]
    · rw [List.cons_append, Regexp.setFrom_cons he (.inl hclose), List.drop_append_of_le_length hn,
        show pos + 1 + (n + 1) = pos + 1 + n + 1 by omega]
      refine hset.trans ?_
      simp
      omega
termination_by cs.length
decreasing_by rw [List.length_drop, List.length_cons]; omega

end SkipSet

section
variable {set : List Char} {found : List (Nat × SetIssue)}

/-- Issues that move by the same distance are sorted alike. -/
theorem sorted_map {Issue : Type} {f : Nat × SetIssue → Nat × Issue}
    (hf : ∀ a b, (f a).1 ≤ (f b).1 ↔ a.1 ≤ b.1) :
    ((found.map f).reverse.mergeSort fun a b => a.1 ≤ b.1)
      = (found.reverse.mergeSort fun a b => a.1 ≤ b.1).map f := by
  rw [← List.map_reverse]
  exact (List.map_mergeSort fun a _ b _ => decide_eq_decide.mpr (hf a b).symm).symm

theorem skipSet_lint_plain (hne : set ≠ []) (hplain : ∀ c ∈ set, IsPlain c) {seen : Array Span}
    (h : SkipSet.lintFrom ⟨#[], [], []⟩ 0 set =
      .ok ⟨seen, [], found.map fun i => (i.1, .set i.2)⟩) :
    SkipSet.lint set
      = .ok ((found.reverse.mergeSort fun a b => a.1 ≤ b.1).map fun i => (i.1, .set i.2)) := by
  obtain ⟨c, rest, rfl⟩ := List.exists_cons_of_ne_nil hne
  have hc := hplain c List.mem_cons_self
  have hcaret : c ≠ '^' := fun heq => hc (by simp [heq])
  have hopen : c ≠ '[' := fun heq => hc (by simp [heq])
  simp only [SkipSet.lint, SkipSet.isFramed, List.head?_cons, List.drop_zero, List.isEmpty_cons,
    Option.some_beq_some, beq_eq_false_iff_ne.mpr hcaret, beq_eq_false_iff_ne.mpr hopen,
    Bool.false_eq_true, if_false, Bool.false_and, h]
  exact congrArg Except.ok (sorted_map fun _ _ => Iff.rfl)

theorem regexp_lint_set {stop : Nat} (hcaret : set.head? ≠ some '^') (hstop : stop = set.length + 2)
    (h : Regexp.setFrom 0 1 true #[] [] (set ++ [']'])
      = .ok (found.map fun i => (i.1 + 1, .set i.2), stop)) :
    Regexp.lint ('[' :: set ++ [']'])
      = .ok ((found.reverse.mergeSort fun a b => a.1 ≤ b.1).map fun i => (i.1 + 1, .set i.2)) := by
  have hhead : ((set ++ [']']).head? == some '^') = false := by
    cases set <;> simp_all
  have hstep : Regexp.step .initial [] 0 '[' (set ++ [']'] ++ [])
      = .ok (⟨found.map fun i => (i.1 + 1, .set i.2), [], .item⟩, (set ++ [']']).length) := by
    change Regexp.setStep .initial 0 (set ++ [']'] ++ []) = _
    simp only [Regexp.setStep, List.append_nil, hhead, Bool.false_eq_true, if_false, List.drop_zero]
    change (Regexp.setFrom 0 1 true #[] [] (set ++ [']']) >>= _) = _
    rw [h, hstop]
    simp [bind, Except.bind, pure, Except.pure, Regexp.State.initial]
  rw [List.cons_append, (Regexp.Runs.token (s := .initial) hstep).lint_eq rfl]
  exact congrArg Except.ok (sorted_map fun _ _ => Nat.add_le_add_iff_right)

end

/-- A skip set and the same set between brackets have the same issues, in the same order, each one
place further to the right between the brackets. -/
theorem linters_agree (set : List Char) (hne : set ≠ []) (hplain : ∀ c ∈ set, IsPlain c) :
    ∃ found : List (Nat × SetIssue),
      SkipSet.lint set = .ok (found.map fun i => (i.1, .set i.2)) ∧
      Regexp.lint ('[' :: set ++ [']']) = .ok (found.map fun i => (i.1 + 1, .set i.2)) := by
  obtain ⟨found, seen, hskip, hset⟩ :=
    SkipSet.scans_agree ⟨#[], [], []⟩ 0 set hplain 0 true [] fun _ => hne
  rw [List.append_nil] at hskip hset
  have hcaret : set.head? ≠ some '^' := fun h => hplain _ (List.mem_of_mem_head? h) (by simp)
  exact ⟨_, skipSet_lint_plain hne hplain hskip, regexp_lint_set hcaret (by omega) hset⟩

/-- Ranges in all relations to what stands before them, and a hyphen at the end. -/
theorem ranges_linted_alike : ∃ found : List (Nat × SetIssue),
    found.map Prod.fst = [4, 5, 8, 11, 12] ∧
    SkipSet.lint "xa-fcc-hz-axw-y-".toList = .ok (found.map fun i => (i.1, .set i.2)) ∧
    Regexp.lint "[xa-fcc-hz-axw-y-]".toList = .ok (found.map fun i => (i.1 + 1, .set i.2)) := by
  have hplain : ∀ c ∈ "xa-fcc-hz-axw-y-".toList, IsPlain c := by simp [IsPlain]
  obtain ⟨found, hskip, hregexp⟩ := linters_agree "xa-fcc-hz-axw-y-".toList (by decide) hplain
  let issues : List (Nat × SetIssue) :=
    [(4, .included 'c' ⟨'a', 'f'⟩), (5, .overlap ⟨'a', 'f'⟩ ⟨'c', 'h'⟩), (8, .reversed ⟨'z', 'a'⟩),
      (11, .duplicated 'x'), (12, .includes ⟨'w', 'y'⟩ 'x')]
  have hscan : Regexp.setFrom 0 1 true #[] [] ("xa-fcc-hz-axw-y-".toList ++ [']'])
      = .ok (issues.reverse.map fun i => (i.1 + 1, .set i.2), 18) :=
    Rx.ok_of_toOption (by decide +kernel)
  have hlint := regexp_lint_set (by decide) rfl hscan
  rw [List.reverse_reverse, List.mergeSort_of_pairwise (by decide)] at hlint
  have hplaces := congrArg (List.map fun i => i.1 - 1) (Except.ok.inj (hregexp.symm.trans hlint))
  simp only [List.map_map, Function.comp_def, Nat.add_sub_cancel] at hplaces
  exact ⟨found, hplaces, hskip, hregexp⟩

end PatternLint.Pattern
