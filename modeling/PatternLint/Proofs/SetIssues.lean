import PatternLint.Proofs.BracketReading
import PatternLint.Proofs.IntervalSpans

/-! What the linter reports about a set. Nothing is wrong with spans in their order that do not
meet. -/

namespace PatternLint.Pattern.Regexp

def Element.span? : Element → Option Span
  | .span s => some s
  | .named _ => none

/-- The spans among the elements of a set. -/
def spansOf (es : List Element) : List Span :=
  es.filterMap Element.span?

/-- No span is reversed, and no two of them meet. -/
structure Tidy (spans : List Span) : Prop where
  le : ∀ s ∈ spans, s.lo ≤ s.hi
  apart : spans.Pairwise fun s t => s.meets t = false

variable {origin pos stop : Nat} {first : Bool} {seen : Array Span} {cs after : List Char}
  {issues issues' : List (Nat × Issue)} {es : List Element}

/-- What is wrong with an element behind others. -/
def Element.issue? (seen : Array Span) : Element → Option SetIssue
  | .span s => if s.hi < s.lo then reversed? s else clash? seen s
  | .named _ => none

/-- The spans that later elements are compared with. -/
def Element.onto (seen : Array Span) : Element → Array Span
  | .span s => if s.hi < s.lo then seen else seen.push s
  | .named _ => seen

theorem setFrom_cons {c : Char} {rest : List Char} {e : Element} {n : Nat}
    (h : element? c rest = some (e, n)) (hc : c ≠ ']' ∨ first = true) :
    setFrom origin pos first seen issues (c :: rest)
      = setFrom origin (pos + (n + 1)) false (e.onto seen)
          ((e.issue? seen).toList.map (fun i => (pos, .set i)) ++ issues) (rest.drop n) := by
  have hopen : ¬ (c == ']' && !first) = true := by grind
  unfold element? at h
  split at h
  · rename_i name hname
    split at h
    · rename_i hknown
      cases h
      rw [setFrom, if_neg hopen]
      simp [hname, hknown, Element.onto, Element.issue?, Nat.add_assoc]
    · cases h
  · rename_i hname
    split at h
    · rename_i range hrange
      cases h
      rw [setFrom, if_neg hopen]
      simp only [hname, hrange, Element.onto, Element.issue?]
      split <;> rfl
    · rename_i hrange
      cases h
      rw [setFrom, if_neg hopen]
      simp [hname, hrange, Element.onto, Element.issue?, Span.single]

/-- All that is new in what the linter reports about a set is about its elements. -/
theorem setFrom_reports (hes : elements first cs = some (es, after))
    (h : setFrom origin pos first seen issues cs = .ok (issues', stop)) :
    ∃ new, issues' = new ++ issues ∧ ∀ i ∈ new, ∃ issue, i.2 = .set issue := by
  fun_induction elements first cs generalizing pos seen issues es with
  | case1 => cases hes
  | case2 first c rest hc =>
    rw [setFrom, if_pos hc] at h
    cases h
    exact ⟨[], rfl, List.forall_mem_nil _⟩
  | case3 first c rest hc e n he ih =>
    obtain ⟨r, hr, hcons⟩ := Option.map_eq_some_iff.mp hes
    cases hcons
    rw [setFrom_cons he (by grind)] at h
    obtain ⟨new, rfl, hnew⟩ := ih hr h
    refine ⟨new ++ (e.issue? seen).toList.map fun i => (pos, .set i), by simp, ?_⟩
    exact List.forall_mem_append.mpr ⟨hnew, by simp⟩
  | case4 => cases hes

/-- The step over a set that the linter accepts takes its elements and the closing bracket. -/
theorem elements_of_setStep {st st' : State} {rest : List Char} {n : Nat}
    (h : setStep st pos rest = .ok (st', n)) :
    ∃ es after, elements true (rest.drop (caretLength rest)) = some (es, after) ∧
      n = rest.length - after.length := by
  obtain ⟨⟨issues, stop⟩, hset, -⟩ := Rx.except_bind_eq_ok.mp h
  have hstop := congrArg (fun r => r.toOption.map Prod.snd) hset
  change (setFrom pos (pos + 1 + caretLength rest) true #[] st.issues
    (rest.drop (caretLength rest))).toOption.map Prod.snd = some stop at hstop
  rw [setFrom_stop] at hstop
  obtain ⟨⟨es, after⟩, hes, -⟩ := Option.map_eq_some_iff.mp hstop
  obtain ⟨issues, stop, -, hstep⟩ := setStep_ok hes st pos
  cases hstep.symm.trans h
  exact ⟨es, after, hes, rfl⟩

theorem clash?_none {s : Span} (h : ∀ t ∈ seen, t.meets s = false) : clash? seen s = none := by
  simp only [clash?, Option.map_eq_none_iff, Array.find?_eq_none]
  exact fun t ht => by simp [Span.meets_comm s t, h t ht]

theorem Tidy.tail {s : Span} {spans : List Span} (h : Tidy (s :: spans)) : Tidy spans :=
  ⟨(List.forall_mem_cons.mp h.le).2, (List.pairwise_cons.mp h.apart).2⟩

/-- The linter passes a tidy set without issues. -/
theorem setFrom_clean (hes : elements first cs = some (es, after)) (htidy : Tidy (spansOf es))
    (hseen : ∀ t ∈ seen, ∀ s ∈ spansOf es, t.meets s = false)
    (h : setFrom origin pos first seen issues cs = .ok (issues', stop)) : issues' = issues := by
  fun_induction elements first cs generalizing pos seen issues es with
  | case1 => cases hes
  | case2 first c rest hc =>
    rw [setFrom, if_pos hc] at h
    cases h
    rfl
  | case3 first c rest hc e n he ih =>
    obtain ⟨r, hr, hcons⟩ := Option.map_eq_some_iff.mp hes
    cases hcons
    rw [setFrom_cons he (by grind)] at h
    cases e with
    | named name => exact ih hr htidy hseen h
    | span s =>
      have hle : ¬ s.hi < s.lo := Char.not_lt.mpr (htidy.le s List.mem_cons_self)
      have hclash : clash? seen s = none := clash?_none fun t ht => hseen t ht s List.mem_cons_self
      simp only [Element.onto, Element.issue?, if_neg hle, hclash] at h
      refine ih hr htidy.tail (fun t ht u hu => ?_) h
      obtain ht | rfl := Array.mem_push.mp ht
      · exact hseen t ht u (List.mem_cons_of_mem _ hu)
      · exact (List.pairwise_cons.mp htidy.apart).1 u hu
  | case4 => cases hes

end PatternLint.Pattern.Regexp
