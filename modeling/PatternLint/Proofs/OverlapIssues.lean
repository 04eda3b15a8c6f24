import Mathlib.Data.List.Permutation
import PatternLint.Pattern.SkipSet
import PatternLint.Proofs.OverlapAccounts
import PatternLint.Proofs.RegexpTokens
import PatternLint.Proofs.SetArguments

/-! Overlaps in character alternatives and in skip sets. Both linters complain once about each
character or range that meets an earlier one, and about no other. -/

namespace PatternLint.Pattern

namespace Regexp

open Rx (except_bind_eq_ok map_eq_ok ok_of_toOption)

/-- The elements of a set, each with its place, up to the closing bracket, and what follows it. -/
def placedElements (first : Bool) (pos : Nat) (cs : List Char) :
    Option (List (Nat × Element) × List Char) :=
  match _h : cs with
  | [] => none
  | c :: rest =>
    if c == ']' && !first then some ([], rest)
    else match element? c rest with
      | some (e, n) =>
        (placedElements false (pos + 1 + n) (rest.drop n)).map fun (es, after) =>
          ((pos, e) :: es, after)
      | none => none
termination_by cs.length
decreasing_by rw [List.length_drop, List.length_cons]; omega

/-- The characters and ranges of a regexp that consists of one character alternative. -/
def alternativeItems? (regexp : List Char) : Option (List (Nat × Span)) :=
  match regexp with
  | '[' :: rest =>
    match placedElements true (1 + caretLength rest) (rest.drop (caretLength rest)) with
    | some (es, []) => some (itemsOf es)
    | _ => none
  | _ => none

def Issue.overlap? : Issue → Option SetIssue
  | .set issue => if issue.isOverlap then some issue else none
  | _ => none

/-- The complaints that one item of a set meets another. -/
def overlaps (issues : List (Nat × Issue)) : List (Nat × SetIssue) :=
  issues.filterMap fun (pos, issue) => issue.overlap?.map (pos, ·)

variable {first : Bool} {pos origin stop n : Nat} {regexp cs rest after : List Char}
  {seen : Array Span}
  {es : List (Nat × Element)} {issues : List (Nat × Issue)} {st : State}

theorem elements_eq_placed (first : Bool) (pos : Nat) (cs : List Char) :
    elements first cs = (placedElements first pos cs).map fun r => (r.1.map Prod.snd, r.2) := by
  fun_induction placedElements first pos cs with
  | case1 => simp [elements]
  | case2 first pos c rest hc => rw [elements, if_pos hc]; rfl
  | case3 first pos c rest hc e n he ih =>
    rw [elements, if_neg hc, he]
    simp only [ih, Option.map_map]
    rfl
  | case4 first pos c rest hc he => rw [elements, if_neg hc, he]; rfl

theorem placedElements_ascend (h : placedElements first pos cs = some (es, after)) :
    Ascends pos es := by
  fun_induction placedElements first pos cs generalizing es after with
  | case1 => cases h
  | case2 =>
    cases h
    exact .nil
  | case3 first pos c rest hc e n he ih =>
    obtain ⟨r, hr, hcons⟩ := Option.map_eq_some_iff.mp h
    cases hcons
    exact (ih hr).cons e
  | case4 => cases h

/-- The issues about a set are those about its elements. -/
theorem setFrom_issues (hes : placedElements first pos cs = some (es, after))
    (h : setFrom origin pos first seen issues cs = .ok (issues', stop)) :
    issues' = (issuesFrom seen es).reverse.map (fun i => (i.1, .set i.2)) ++ issues := by
  fun_induction placedElements first pos cs generalizing seen issues es with
  | case1 => cases hes
  | case2 first pos c rest hc =>
    rw [setFrom, if_pos hc] at h
    cases h
    cases hes
    rfl
  | case3 first pos c rest hc e n he ih =>
    obtain ⟨r, hr, hcons⟩ := Option.map_eq_some_iff.mp hes
    cases hcons
    rw [setFrom_cons he (by grind), ← Nat.add_assoc, Nat.add_right_comm] at h
    rw [ih hr h, issuesFrom]
    cases e.issue? seen <;> simp
  | case4 => cases hes

theorem overlaps_perm {issues issues' : List (Nat × Issue)} (h : issues.Perm issues') :
    (overlaps issues).Perm (overlaps issues') :=
  h.filterMap _

theorem overlaps_set (found : List (Nat × SetIssue)) :
    overlaps (found.map fun i => (i.1, .set i.2)) = found.filter fun i => i.2.isOverlap := by
  induction found with
  | nil => rfl
  | cons i found ih =>
    obtain ⟨pos, issue⟩ := i
    rw [List.map_cons, overlaps, List.filterMap_cons, ← overlaps, ih, List.filter_cons]
    cases hoverlap : issue.isOverlap <;> simp [Issue.overlap?, hoverlap]

/-- A regexp that is one token and opens with a bracket is one alternative, up to its last
character. -/
theorem elements_of_token (h : tokens ('[' :: rest) = .ok [⟨'[' :: rest, 0⟩]) :
    ∃ es, elements true (rest.drop (caretLength rest)) = some (es, []) := by
  have hset : step .initial [] 0 '[' rest = setStep .initial 0 rest := rfl
  rw [tokens, tokensFrom, hset] at h
  cases hstep : setStep .initial 0 rest with
  | error f => simp [hstep] at h
  | ok r =>
    obtain ⟨next, n⟩ := r
    obtain ⟨es, after, hes, rfl⟩ := elements_of_setStep hstep
    simp only [hstep] at h
    obtain ⟨ts, -, hts⟩ := map_eq_ok.mp h
    obtain ⟨htoken, -⟩ := List.cons.inj hts
    have htext : rest.take (rest.length - after.length) = rest :=
      (List.cons.inj (Token.mk.inj htoken).1).2
    have htaken := congrArg List.length htext
    have hlength := elements_length hes
    simp only [List.length_take, List.length_drop] at htaken hlength
    have hnone : after = [] := List.length_eq_zero_iff.mp (by omega)
    exact ⟨es, hnone ▸ hes⟩

theorem lint_alternative (hes : placedElements true (1 + caretLength rest)
      (rest.drop (caretLength rest)) = some (es, [])) :
    ∃ issues, lint ('[' :: rest) = .ok issues ∧
      (overlaps issues).Perm ((issuesFrom #[] es).filter fun i => i.2.isOverlap) := by
  have helements := elements_eq_placed true (1 + caretLength rest) (rest.drop (caretLength rest))
  rw [hes] at helements
  obtain ⟨issues, stop, hset, hstep⟩ := setStep_ok helements .initial 0
  have hissues := setFrom_issues hes hset
  have hrun : step .initial [] 0 '[' (rest ++ []) = .ok (⟨issues, [], .item⟩, rest.length) := by
    rw [List.append_nil]
    exact hstep
  refine ⟨_, (Runs.token (s := .initial) hrun).lint_eq rfl, ?_⟩
  refine (overlaps_perm (List.mergeSort_perm _ _)).trans ?_
  change (overlaps issues.reverse).Perm _
  rw [hissues, State.initial, List.append_nil, ← List.map_reverse, List.reverse_reverse,
    overlaps_set]

/-- A regexp of one character alternative is accepted, and its complaints about overlaps are
those about its items. -/
theorem alternative_accounted (h : tokens regexp = .ok [⟨regexp, 0⟩])
    (hopen : regexp.head? = some '[') :
    ∃ items issues, alternativeItems? regexp = some items ∧ lint regexp = .ok issues ∧
      Accounts (overlaps issues) items := by
  obtain ⟨rest, rfl⟩ : ∃ rest, regexp = '[' :: rest := List.head?_eq_some_iff.mp hopen
  obtain ⟨es, helements⟩ := elements_of_token h
  rw [elements_eq_placed true (1 + caretLength rest)] at helements
  obtain ⟨⟨placed, after⟩, hplaced, heq⟩ := Option.map_eq_some_iff.mp helements
  obtain ⟨rfl, rfl⟩ := Prod.mk.inj heq
  obtain ⟨issues, hlint, hperm⟩ := lint_alternative hplaced
  refine ⟨itemsOf placed, issues, by simp [alternativeItems?, hplaced], hlint, ?_⟩
  exact (placedElements_ascend hplaced).accounts hperm

end Regexp

namespace SkipSet

open Regexp (Element)
open Rx (except_bind_eq_ok map_eq_ok)

/-- The character at the start of a text, which a backslash may quote, and how many characters it
takes after the first one. -/
def character? (c : Char) (rest : List Char) : Option (Char × Nat) :=
  if c == '\\' then rest.head?.map (·, 1) else some (c, 0)

/-- The element at the start of a text, and how many characters it takes after the first one. -/
def member? (c : Char) (rest : List Char) : Option (Element × Nat) :=
  match Regexp.className? (c :: rest) with
  | some name =>
    if String.ofList name ∈ charClasses then some (.named (String.ofList name), name.length + 3)
    else none
  | none => do
    let (lo, n) ← character? c rest
    match rest.drop n with
    | '-' :: x :: after =>
      let (hi, k) ← character? x after
      return (.span ⟨lo, hi⟩, n + 2 + k)
    | _ => return (.span (.single lo), n)

/-- The elements of a skip set, each with its place. -/
def placedMembers (pos : Nat) (cs : List Char) : Option (List (Nat × Element)) :=
  match _h : cs with
  | [] => some []
  | c :: rest =>
    match member? c rest with
    | some (e, n) => (placedMembers (pos + 1 + n) (rest.drop n)).map ((pos, e) :: ·)
    | none => none
termination_by cs.length
decreasing_by rw [List.length_drop, List.length_cons]; omega

/-- The characters and ranges of a skip set. -/
def items? (skipSet : List Char) : Option (List (Nat × Span)) :=
  (placedMembers (Regexp.caretLength skipSet)
    (skipSet.drop (Regexp.caretLength skipSet))).map itemsOf

def Issue.overlap? : Issue → Option SetIssue
  | .set issue => if issue.isOverlap then some issue else none
  | _ => none

/-- The complaints that one item of a set meets another. -/
def overlaps (issues : List (Nat × Issue)) : List (Nat × SetIssue) :=
  issues.filterMap fun (pos, issue) => issue.overlap?.map (pos, ·)

variable {pos n : Nat} {c x : Char} {cs rest : List Char} {e : Element} {st st' : State}
  {es : List (Nat × Element)}

theorem placedMembers_ascend (h : placedMembers pos cs = some es) : Ascends pos es := by
  fun_induction placedMembers pos cs generalizing es with
  | case1 =>
    cases h
    exact .nil
  | case2 pos c rest e n he ih =>
    obtain ⟨more, hmore, rfl⟩ := Option.map_eq_some_iff.mp h
    exact (ih hmore).cons e
  | case3 => cases h

/-! ### One element -/

/-- The second state is the first with what the linter finds in an element. -/
structure Takes (pos : Nat) (e : Element) (st st' : State) : Prop where
  seen : st'.seen = e.onto st.seen
  overlaps : overlaps st'.issues =
    ((e.issue? st.seen).toList.filter SetIssue.isOverlap).map (pos, ·) ++ overlaps st.issues

/-- The states differ in issues that are not about overlaps. -/
structure Similar (st st' : State) : Prop where
  seen : st'.seen = st.seen
  overlaps : overlaps st'.issues = overlaps st.issues

theorem Similar.trans {st'' : State} (h : Similar st st') (h' : Similar st' st'') :
    Similar st st'' :=
  ⟨h'.seen.trans h.seen, h'.overlaps.trans h.overlaps⟩

theorem Similar.takes {st'' : State} (h : Similar st st') (h' : Takes pos e st' st'') :
    Takes pos e st st'' :=
  ⟨h.seen ▸ h'.seen, by rw [h'.overlaps, h.seen, h.overlaps]⟩

theorem charAt_character (h : charAt st pos c rest = .ok (x, n, st')) :
    character? c rest = some (x, n) ∧ Similar st st' := by
  unfold charAt at h
  unfold character?
  split at h
  · rename_i hc
    rw [if_pos hc]
    cases rest with
    | nil => cases h
    | cons y rest =>
      cases h
      refine ⟨rfl, ?_⟩
      split
      · exact ⟨rfl, rfl⟩
      · exact ⟨rfl, rfl⟩
  · rename_i hc
    rw [if_neg hc]
    cases h
    exact ⟨rfl, rfl, rfl⟩

theorem overlaps_report_set (issue : SetIssue) :
    overlaps (st.report pos (.set issue)).issues
      = ([issue].filter SetIssue.isOverlap).map (pos, ·) ++ overlaps st.issues := by
  rw [overlaps, State.report, List.filterMap_cons]
  cases hoverlap : issue.isOverlap <;> simp [Issue.overlap?, hoverlap, overlaps]

theorem takes_add {s : Span} (h : ¬ s.hi < s.lo) : Takes pos (.span s) st (st.add pos s) := by
  cases hclash : clash? st.seen s with
  | none =>
    refine ⟨?_, ?_⟩ <;> simp [State.add, Element.onto, Element.issue?, h, hclash]
  | some issue =>
    refine ⟨?_, ?_⟩
    · simp [State.add, State.report, Element.onto, h, hclash]
    · simpa [State.add, Element.issue?, h, hclash] using overlaps_report_set issue

theorem takes_reversed {s : Span} (h : s.hi < s.lo) : Takes pos (.span s) st
    (match reversed? s with
      | some issue => st.report pos (.set issue)
      | none => st) := by
  cases hissue : reversed? s with
  | none => refine ⟨?_, ?_⟩ <;> simp [Element.onto, Element.issue?, h, hissue]
  | some issue =>
    refine ⟨?_, ?_⟩
    · simp [State.report, Element.onto, h]
    · simpa [Element.issue?, h, hissue] using overlaps_report_set issue

/-- The linter takes the element that is read. -/
theorem element_takes (hclass : Regexp.className? (c :: rest) = none)
    (h : element st pos c rest = .ok (st', n)) :
    ∃ e, member? c rest = some (e, n) ∧ Takes pos e st st' := by
  obtain ⟨⟨lo, n, st₁⟩, hlo, h⟩ := except_bind_eq_ok.mp h
  obtain ⟨hlo, hsimilar⟩ := charAt_character hlo
  simp only [member?, hclass, hlo]
  dsimp only at h
  split at h
  · rename_i x after hdrop
    obtain ⟨⟨hi, k, st₂⟩, hhi, h⟩ := except_bind_eq_ok.mp h
    obtain ⟨hhi, hsimilar'⟩ := charAt_character hhi
    cases h
    refine ⟨.span ⟨lo, hi⟩, by simp [hdrop, hhi], (hsimilar.trans hsimilar').takes ?_⟩
    split
    · rename_i hrev
      exact takes_reversed hrev
    · rename_i hrev
      exact takes_add hrev
  · rename_i hdrop
    cases h
    refine ⟨.span (.single lo), ?_, hsimilar.takes (takes_add (Char.lt_irrefl lo))⟩
    change (match rest.drop n with
      | '-' :: x :: after => _
      | _ => some (Element.span (.single lo), n)) = _
    split
    · rename_i x after heq
      exact absurd heq (hdrop x after)
    · rfl

/-! ### The whole set -/

/-- A run takes the element that is read, and goes on behind it. -/
theorem lintFrom_cons (h : lintFrom st pos (c :: rest) = .ok st') :
    ∃ e n st₁, member? c rest = some (e, n) ∧ Takes pos e st st₁ ∧
      lintFrom st₁ (pos + 1 + n) (rest.drop n) = .ok st' := by
  rw [lintFrom] at h
  split at h
  · rename_i name hclass
    dsimp only at h
    split at h
    · cases h
    · rename_i hknown
      refine ⟨.named (String.ofList name), name.length + 3, _, ?_, ?_,
        by rwa [show pos + 1 + (name.length + 3) = pos + name.length + 4 by omega]⟩
      · simp [member?, hclass, Classical.not_not.mp hknown]
      · constructor <;> split <;> simp [Element.onto, Element.issue?, State.report, overlaps,
          Issue.overlap?]
  · rename_i hclass
    split at h
    · cases h
    · rename_i st₁ n hstep
      obtain ⟨e, he, htakes⟩ := element_takes hclass hstep
      exact ⟨e, n, st₁, he, htakes, h⟩

/-- The complaints of a run are those about the elements that are read. -/
theorem lintFrom_overlaps {st st' : State} {pos : Nat} {cs : List Char}
    (h : lintFrom st pos cs = .ok st') :
    ∃ es, placedMembers pos cs = some es ∧
      overlaps st'.issues = ((issuesFrom st.seen es).filter fun i => i.2.isOverlap).reverse
        ++ overlaps st.issues := by
  match cs with
  | [] =>
    obtain rfl : st = st' := by simpa [lintFrom] using h
    exact ⟨[], by simp [placedMembers], by simp [issuesFrom]⟩
  | c :: rest =>
    obtain ⟨e, n, st₁, he, htakes, hrun⟩ := lintFrom_cons h
    obtain ⟨es, hes, hoverlaps⟩ := lintFrom_overlaps hrun
    refine ⟨(pos, e) :: es, by simp [placedMembers, he, hes], ?_⟩
    rw [hoverlaps, htakes.seen, htakes.overlaps, issuesFrom, List.filter_append,
      List.reverse_append, List.append_assoc]
    cases hissue : e.issue? st.seen with
    | none => rfl
    | some issue => cases hoverlap : issue.isOverlap <;> simp [hoverlap]
termination_by cs.length
decreasing_by rw [List.length_drop, List.length_cons]; omega

/-- What is found before the run, in an empty set or about brackets around
the set, is no overlap. -/
theorem lint_cases {skipSet : List Char} {issues : List (Nat × Issue)}
    (h : lint skipSet = .ok issues) :
    (skipSet.drop (Regexp.caretLength skipSet) = [] ∧ overlaps issues = []) ∨
      ∃ framed st, overlaps framed = [] ∧ lintFrom ⟨#[], [], framed⟩ (Regexp.caretLength skipSet)
        (skipSet.drop (Regexp.caretLength skipSet)) = .ok st ∧
          issues = st.issues.reverse.mergeSort fun a b => a.1 ≤ b.1 := by
  rw [lint] at h
  change (if (skipSet.drop (Regexp.caretLength skipSet)).isEmpty then _ else _) = _ at h
  split at h
  · rename_i hempty
    cases h
    refine .inl ⟨List.isEmpty_iff.mp hempty, ?_⟩
    split <;> rfl
  · obtain ⟨st, hrun, rfl⟩ := map_eq_ok.mp h
    refine .inr ⟨_, st, ?_, hrun, rfl⟩
    split <;> split <;> rfl

/-- The complaints about overlaps in a skip set that is accepted are those about its items. -/
theorem skipSet_accounted {skipSet : List Char} {issues : List (Nat × Issue)}
    (h : lint skipSet = .ok issues) :
    ∃ items, items? skipSet = some items ∧ Accounts (overlaps issues) items := by
  obtain ⟨hempty, hnone⟩ | ⟨framed, st, hframed, hrun, rfl⟩ := lint_cases h
  · have hes : placedMembers (Regexp.caretLength skipSet) [] = some [] := by simp [placedMembers]
    refine ⟨itemsOf [], by rw [items?, hempty, hes]; rfl, (@Ascends.nil 0).accounts ?_⟩
    rw [hnone]
    exact .nil
  · obtain ⟨es, hes, hoverlaps⟩ := lintFrom_overlaps hrun
    rw [hframed, List.append_nil] at hoverlaps
    refine ⟨itemsOf es, by rw [items?, hes]; rfl, (placedMembers_ascend hes).accounts ?_⟩
    have hsorted : (overlaps (st.issues.reverse.mergeSort fun a b => a.1 ≤ b.1)).Perm
        (overlaps st.issues) := ((List.mergeSort_perm _ _).trans (List.reverse_perm _)).filterMap _
    exact hsorted.trans (hoverlaps ▸ List.reverse_perm _)

end SkipSet

/-- Both linters complain about exactly the characters and ranges that meet an earlier one, once
about each: in a regexp that is one character alternative, and in a skip set that is accepted. -/
theorem overlaps_accounted :
    (∀ regexp, Regexp.tokens regexp = .ok [⟨regexp, 0⟩] → regexp.head? = some '[' →
      ∃ items issues, Regexp.alternativeItems? regexp = some items ∧
        Regexp.lint regexp = .ok issues ∧ Accounts (Regexp.overlaps issues) items) ∧
    ∀ skipSet issues, SkipSet.lint skipSet = .ok issues →
      ∃ items, SkipSet.items? skipSet = some items ∧ Accounts (SkipSet.overlaps issues) items :=
  ⟨fun _ h hopen => Regexp.alternative_accounted h hopen, fun _ _ h => SkipSet.skipSet_accounted h⟩

/-- Singles and ranges in several relations, with a class and a reversed range among them, and
quoted hyphens in the skip set. -/
theorem mixedItems_accounted :
    (∃ items issues,
      items = [(2, ⟨'a', 'f'⟩), (5, .single 'c'), (15, .single 'c'), (19, ⟨'b', 'h'⟩),
        (22, .single '-')] ∧
      Regexp.alternativeItems? "[^a-fc[:digit:]cz-ab-h-]".toList = some items ∧
      Regexp.lint "[^a-fc[:digit:]cz-ab-h-]".toList = .ok issues ∧
      Accounts (Regexp.overlaps issues) items ∧
      (Regexp.overlaps issues).map Prod.fst = [5, 15, 19]) ∧
    ∃ items issues,
      items = [(1, ⟨'a', 'f'⟩), (4, .single '-'), (6, .single 'c'), (16, .single 'c'),
        (20, ⟨'b', 'h'⟩), (23, .single '-')] ∧
      SkipSet.items? "^a-f\\-c[:digit:]cz-ab-h\\-".toList = some items ∧
      SkipSet.lint "^a-f\\-c[:digit:]cz-ab-h\\-".toList = .ok issues ∧
      Accounts (SkipSet.overlaps issues) items ∧
      (SkipSet.overlaps issues).map Prod.fst = [6, 16, 20, 23] := by
  constructor
  · have htokens : Regexp.tokens "[^a-fc[:digit:]cz-ab-h-]".toList
        = .ok [⟨"[^a-fc[:digit:]cz-ab-h-]".toList, 0⟩] := Rx.ok_of_toOption (by cbv)
    have hlint : Regexp.lint "[^a-fc[:digit:]cz-ab-h-]".toList = .ok
        [(5, .set (.included 'c' ⟨'a', 'f'⟩)), (15, .set (.included 'c' ⟨'a', 'f'⟩)),
          (16, .set (.reversed ⟨'z', 'a'⟩)), (19, .set (.overlap ⟨'a', 'f'⟩ ⟨'b', 'h'⟩))] :=
      Rx.ok_of_toOption (by cbv)
    obtain ⟨items, issues, hitems, hissues, haccounts⟩ := overlaps_accounted.1 _ htokens rfl
    cases hlint.symm.trans hissues
    have hexpected : Regexp.alternativeItems? "[^a-fc[:digit:]cz-ab-h-]".toList
        = some [(2, ⟨'a', 'f'⟩), (5, .single 'c'), (15, .single 'c'), (19, ⟨'b', 'h'⟩),
          (22, .single '-')] := by cbv
    cases hexpected.symm.trans hitems
    exact ⟨_, _, rfl, hitems, hissues, haccounts, rfl⟩
  · have hlint : SkipSet.lint "^a-f\\-c[:digit:]cz-ab-h\\-".toList = .ok
        [(6, .set (.included 'c' ⟨'a', 'f'⟩)), (16, .set (.included 'c' ⟨'a', 'f'⟩)),
          (17, .set (.reversed ⟨'z', 'a'⟩)), (20, .set (.overlap ⟨'a', 'f'⟩ ⟨'b', 'h'⟩)),
          (23, .set (.duplicated '-'))] := Rx.ok_of_toOption (by cbv)
    obtain ⟨items, hitems, haccounts⟩ := overlaps_accounted.2 _ _ hlint
    have hexpected : SkipSet.items? "^a-f\\-c[:digit:]cz-ab-h\\-".toList
        = some [(1, ⟨'a', 'f'⟩), (4, .single '-'), (6, .single 'c'), (16, .single 'c'),
          (20, ⟨'b', 'h'⟩), (23, .single '-')] := by cbv
    cases hexpected.symm.trans hitems
    exact ⟨_, _, rfl, hitems, hlint, haccounts, rfl⟩

end PatternLint.Pattern
