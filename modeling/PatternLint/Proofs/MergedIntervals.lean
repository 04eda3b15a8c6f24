import Mathlib.Data.List.Sort
import PatternLint.Rx.Set

/-! Merging intervals of character codes. The merged intervals cover the same codes, ascend and keep
a gap between neighbours. -/

namespace PatternLint.Rx

/-- A code lies in one of the intervals. -/
def Covers (ps : List (Int × Int)) (n : Int) : Prop :=
  ∃ p ∈ ps, p.1 ≤ n ∧ n ≤ p.2

@[simp] theorem covers_nil : ¬ Covers [] n := by
  simp [Covers]

@[simp] theorem covers_cons : Covers (p :: ps) n ↔ (p.1 ≤ n ∧ n ≤ p.2) ∨ Covers ps n := by
  simp [Covers]

@[simp] theorem covers_append : Covers (ps ++ qs) n ↔ Covers ps n ∨ Covers qs n := by
  simp [Covers, or_and_right, exists_or]

theorem covers_perm (h : ps.Perm qs) : Covers ps n ↔ Covers qs n := by
  simp [Covers, h.mem_iff]

/-- No interval is empty, and each ends before the next one starts, with a gap between them. -/
structure Apart (ps : List (Int × Int)) : Prop where
  nonempty : ∀ p ∈ ps, p.1 ≤ p.2
  gaps : ps.Pairwise fun p q => p.2 + 1 < q.1

variable {merged intervals : List (Int × Int)}

/-- What a run of `mergeOnto` keeps. The merged intervals stand in reverse, and those to come start
nowhere before them. -/
structure Ready (merged intervals : List (Int × Int)) : Prop where
  nonempty : ∀ p ∈ merged, p.1 ≤ p.2
  gaps : merged.Pairwise fun p q => q.2 + 1 < p.1
  nonempty' : ∀ p ∈ intervals, p.1 ≤ p.2
  ascending : intervals.Pairwise fun p q => p.1 ≤ q.1
  later : ∀ p ∈ merged, ∀ q ∈ intervals, p.1 ≤ q.1

/-- An interval that meets or touches the last merged one makes it longer. -/
theorem Ready.join (h : Ready ((lo', hi') :: more) ((lo, hi) :: rest)) :
    Ready ((lo', max hi hi') :: more) rest := by
  obtain ⟨hne, hgaps, hne', hasc, hlater⟩ := h
  simp only [List.forall_mem_cons, List.pairwise_cons] at hne hgaps hne' hasc hlater
  refine ⟨?_, List.pairwise_cons.mpr hgaps, hne'.2, hasc.2, ?_⟩ <;>
    simp only [List.forall_mem_cons]
  · exact ⟨by omega, hne.2⟩
  · exact ⟨hlater.1.2, fun p hp => (hlater.2 p hp).2⟩

theorem Ready.before_push (h : Ready merged ((lo, hi) :: rest))
    (hgap : ∀ p ∈ merged.head?, p.2 + 1 < lo) : ∀ p ∈ merged, p.2 + 1 < lo := by
  cases merged with
  | nil => simp
  | cons last more =>
    have hlast : last.2 + 1 < lo := hgap last rfl
    have hlo := h.nonempty last List.mem_cons_self
    refine List.forall_mem_cons.mpr ⟨hlast, fun p hp => ?_⟩
    have := (List.pairwise_cons.mp h.gaps).1 p hp
    omega

/-- An interval behind a gap starts a new one. -/
theorem Ready.push (h : Ready merged ((lo, hi) :: rest)) (hgap : ∀ p ∈ merged.head?, p.2 + 1 < lo) :
    Ready ((lo, hi) :: merged) rest := by
  have hbefore := h.before_push hgap
  obtain ⟨hne, hgaps, hne', hasc, hlater⟩ := h
  simp only [List.forall_mem_cons, List.pairwise_cons] at hne' hasc hlater
  refine ⟨?_, List.pairwise_cons.mpr ⟨hbefore, hgaps⟩, hne'.2, hasc.2, ?_⟩ <;>
    simp only [List.forall_mem_cons]
  · exact ⟨hne'.1, hne⟩
  · exact ⟨hasc.1, fun p hp => (hlater p hp).2⟩

theorem mergeOnto_apart (h : Ready merged intervals) : Apart (mergeOnto merged intervals) := by
  fun_induction mergeOnto merged intervals with
  | case1 merged => exact ⟨by simpa using h.nonempty, List.pairwise_reverse.mpr h.gaps⟩
  | case2 lo hi rest lo' hi' more hle ih => exact ih h.join
  | case3 lo hi rest lo' hi' more hle ih => exact ih (h.push (by grind))
  | case4 lo hi rest ih => exact ih (h.push (by simp))

theorem covers_mergeOnto (h : Ready merged intervals) :
    Covers (mergeOnto merged intervals) n ↔ Covers merged n ∨ Covers intervals n := by
  fun_induction mergeOnto merged intervals with
  | case1 merged => simp [covers_perm merged.reverse_perm]
  | case2 lo hi rest lo' hi' more hle ih =>
    have := h.later _ List.mem_cons_self _ List.mem_cons_self
    simp only [ih h.join, covers_cons]
    grind
  | case3 lo hi rest lo' hi' more hle ih =>
    simp only [ih (h.push (by grind)), covers_cons]
    grind
  | case4 lo hi rest ih => simp [ih (h.push (by simp))]

/-- The ends of merged intervals are ends of the given ones. -/
theorem mergeOnto_ends {P : Int → Prop} (hm : ∀ p ∈ merged, P p.1 ∧ P p.2)
    (hs : ∀ p ∈ intervals, P p.1 ∧ P p.2) : ∀ p ∈ mergeOnto merged intervals, P p.1 ∧ P p.2 := by
  fun_induction mergeOnto merged intervals with
  | case1 merged => simpa using hm
  | case2 lo hi rest lo' hi' more hle ih =>
    simp only [List.forall_mem_cons] at *
    have hmax : P (max hi hi') := by grind
    exact ih ⟨⟨hm.1.1, hmax⟩, hm.2⟩ hs.2
  | case3 lo hi rest lo' hi' more hle ih =>
    simp only [List.forall_mem_cons] at *
    exact ih ⟨hs.1, hm⟩ hs.2
  | case4 lo hi rest ih =>
    simp only [List.forall_mem_cons] at *
    exact ih ⟨hs.1, hm⟩ hs.2

theorem intervalLe_iff {p q : Int × Int} :
    intervalLe p q = true ↔ p.1 < q.1 ∨ p.1 = q.1 ∧ p.2 ≤ q.2 := by
  simp [intervalLe]

instance : IsTrans (Int × Int) fun p q => intervalLe p q where
  trans p q r hpq hqr := by
    rw [intervalLe_iff] at *
    omega

instance : Std.Total fun p q : Int × Int => (intervalLe p q : Prop) where
  total p q := by
    rw [intervalLe_iff, intervalLe_iff]
    omega

instance : Std.Antisymm fun p q : Int × Int => (intervalLe p q : Prop) where
  antisymm p q hpq hqp := by
    rw [intervalLe_iff] at hpq hqp
    exact Prod.ext (by omega) (by omega)

/-- Only one order is right for given intervals, so that it is no matter how they are sorted.
Sorting by insertion can be evaluated. -/
theorem sorted_insertion (intervals : List (Int × Int)) :
    intervals.mergeSort intervalLe
      = intervals.insertionSort fun p q => intervalLe p q := by
  rw [← List.mergeSort_eq_insertionSort]
  simp only [Bool.decide_eq_true]

theorem sorted_ascending (intervals : List (Int × Int)) :
    (intervals.mergeSort intervalLe).Pairwise fun p q => p.1 ≤ q.1 := by
  rw [sorted_insertion]
  refine (List.pairwise_insertionSort _ intervals).imp fun hle => ?_
  rw [intervalLe_iff] at hle
  omega

theorem sorted_ready (h : ∀ p ∈ intervals, p.1 ≤ p.2) :
    Ready [] (intervals.mergeSort intervalLe) :=
  ⟨by simp, .nil, by simpa using h, sorted_ascending intervals, by simp⟩

theorem merge_apart (h : ∀ p ∈ intervals, p.1 ≤ p.2) : Apart (merge intervals) :=
  mergeOnto_apart (sorted_ready h)

theorem covers_merge (h : ∀ p ∈ intervals, p.1 ≤ p.2) :
    Covers (merge intervals) n ↔ Covers intervals n := by
  simp [merge, covers_mergeOnto (sorted_ready h), covers_perm (List.mergeSort_perm ..)]

theorem merge_ends {P : Int → Prop} (h : ∀ p ∈ intervals, P p.1 ∧ P p.2) :
    ∀ p ∈ merge intervals, P p.1 ∧ P p.2 :=
  mergeOnto_ends (by simp) (by simpa using h)

theorem ofArguments_insertion (args : List Value) :
    CharSet.ofArguments args = (args.mapM argument).map fun parts =>
      ⟨mergeOnto [] ((parts.flatMap (·.1)).insertionSort fun p q => intervalLe p q),
        (parts.filterMap (·.2)).eraseDups⟩ := by
  simp only [CharSet.ofArguments, merge, sorted_insertion]
  cases args.mapM argument with
  | error f => rfl
  | ok parts => rfl

end PatternLint.Rx

/-! Runs of character codes. The runs of ascending codes cover exactly these codes, and ascend. -/

namespace PatternLint.Rx

open Pattern (runsOnto runs ascending)

variable {rs : List (Int × Int)} {codes : List Int} {n : Int}

/-- What a step of `runsOnto` keeps. The runs so far stand in reverse, and the codes to come are
behind them. -/
structure Running (rs : List (Int × Int)) (codes : List Int) : Prop where
  nonempty : ∀ p ∈ rs, p.1 ≤ p.2
  descending : rs.Pairwise fun p q => q.2 < p.1
  sorted : codes.Pairwise (· < ·)
  later : ∀ p ∈ rs, ∀ c ∈ codes, p.2 < c

/-- The next code makes the last run longer. -/
theorem Running.extend {lo hi c : Int} {more : List (Int × Int)} {rest : List Int}
    (h : Running ((lo, hi) :: more) (c :: rest)) : Running ((lo, c) :: more) rest := by
  obtain ⟨hne, hdesc, hcodes, hlater⟩ := h
  simp only [List.forall_mem_cons, List.pairwise_cons] at hne hdesc hcodes hlater
  refine ⟨?_, List.pairwise_cons.mpr hdesc, hcodes.2, ?_⟩ <;> simp only [List.forall_mem_cons]
  · exact ⟨by omega, hne.2⟩
  · exact ⟨hcodes.1, fun p hp => (hlater.2 p hp).2⟩

/-- The next code starts a run. -/
theorem Running.start {c : Int} {rest : List Int} (h : Running rs (c :: rest)) :
    Running ((c, c) :: rs) rest := by
  obtain ⟨hne, hdesc, hcodes, hlater⟩ := h
  simp only [List.forall_mem_cons, List.pairwise_cons] at hcodes hlater
  refine ⟨?_, List.pairwise_cons.mpr ⟨fun p hp => (hlater p hp).1, hdesc⟩, hcodes.2, ?_⟩ <;>
    simp only [List.forall_mem_cons]
  · exact ⟨Int.le_refl _, hne⟩
  · exact ⟨hcodes.1, fun p hp => (hlater p hp).2⟩

theorem runsOnto_descends (h : Running rs codes) :
    (∀ p ∈ runsOnto rs codes, p.1 ≤ p.2) ∧ (runsOnto rs codes).Pairwise fun p q => q.2 < p.1 := by
  fun_induction runsOnto rs codes with
  | case1 rs => exact ⟨h.nonempty, h.descending⟩
  | case2 c rest lo more ih => exact ih h.extend
  | case3 c rest lo hi more hne ih => exact ih h.start
  | case4 c rest ih => exact ih h.start

theorem covers_runsOnto (h : Running rs codes) :
    Covers (runsOnto rs codes) n ↔ Covers rs n ∨ n ∈ codes := by
  fun_induction runsOnto rs codes with
  | case1 rs => simp
  | case2 c rest lo more ih =>
    have hle := h.nonempty _ List.mem_cons_self
    simp only [ih h.extend, covers_cons, List.mem_cons]
    grind
  | case3 c rest lo hi more hne ih =>
    simp only [ih h.start, covers_cons, List.mem_cons]
    grind
  | case4 c rest ih =>
    simp only [ih h.start, covers_cons, List.mem_cons]
    grind

theorem running_nil (h : codes.Pairwise (· < ·)) : Running [] codes :=
  ⟨nofun, .nil, h, nofun⟩

theorem runs_ascending (h : codes.Pairwise (· < ·)) :
    (runs codes).Pairwise fun p q => p.2 < q.1 :=
  List.pairwise_reverse.mpr (runsOnto_descends (running_nil h)).2

theorem runs_nonempty (h : codes.Pairwise (· < ·)) : ∀ p ∈ runs codes, p.1 ≤ p.2 := by
  simpa [runs] using (runsOnto_descends (running_nil h)).1

/-- The runs cover the codes and nothing else. -/
theorem covers_runs (h : codes.Pairwise (· < ·)) : Covers (runs codes) n ↔ n ∈ codes := by
  rw [runs, covers_perm (List.reverse_perm _), covers_runsOnto (running_nil h)]
  simp

/-- Dropping repetitions from a sorted list leaves its members, each once. -/
theorem eraseReps_loop {c : Int} {rest kept : List Int} (hrest : (c :: rest).Pairwise (· ≤ ·))
    (hkept : kept.Pairwise (· > ·)) (hbelow : ∀ k ∈ kept, k < c) :
    (List.eraseRepsBy.loop (· == ·) c rest kept).Pairwise (· < ·) ∧
      ∀ n, n ∈ List.eraseRepsBy.loop (· == ·) c rest kept ↔ n ∈ kept ∨ n ∈ c :: rest := by
  induction rest generalizing c kept with
  | nil =>
    refine ⟨List.pairwise_reverse.mpr (List.pairwise_cons.mpr ⟨hbelow, hkept⟩), fun n => ?_⟩
    simp [List.eraseRepsBy.loop, or_comm]
  | cons d rest ih =>
    obtain ⟨hc, hrest⟩ := List.pairwise_cons.mp hrest
    rw [List.eraseRepsBy.loop]
    split
    · rename_i heq
      obtain rfl := beq_iff_eq.mp heq
      obtain ⟨hpairwise, hmem⟩ := ih hrest hkept hbelow
      exact ⟨hpairwise, fun n => by simp [hmem]⟩
    · rename_i hne
      have hlt : c < d := by
        have := hc d List.mem_cons_self
        have : c ≠ d := beq_eq_false_iff_ne.mp hne
        omega
      obtain ⟨hpairwise, hmem⟩ := ih hrest (List.pairwise_cons.mpr ⟨hbelow, hkept⟩)
        (List.forall_mem_cons.mpr ⟨hlt, fun k hk => Int.lt_trans (hbelow k hk) hlt⟩)
      refine ⟨hpairwise, fun n => ?_⟩
      simp only [hmem, List.mem_cons]
      grind

theorem ascending_insertion (codes : List Int) :
    ascending codes = (codes.insertionSort (· ≤ ·)).eraseReps := by
  rw [ascending, ← List.mergeSort_eq_insertionSort]

theorem ascending_spec (codes : List Int) :
    (ascending codes).Pairwise (· < ·) ∧ ∀ n, n ∈ ascending codes ↔ n ∈ codes := by
  have hsorted := List.pairwise_insertionSort (· ≤ ·) codes
  have hperm := List.perm_insertionSort (· ≤ ·) codes
  rw [ascending_insertion]
  generalize codes.insertionSort (· ≤ ·) = sorted at hsorted hperm ⊢
  cases sorted with
  | nil => exact ⟨.nil, fun n => hperm.mem_iff⟩
  | cons c rest =>
    obtain ⟨hpairwise, hmem⟩ := eraseReps_loop hsorted .nil nofun
    exact ⟨hpairwise, fun n => (hmem n).trans (by simp [← hperm.mem_iff])⟩

/-- Different codes are still several in ascending order. -/
theorem ascending_several {a b : Int} (ha : a ∈ codes) (hb : b ∈ codes) (hne : a ≠ b) :
    ∃ n m rest, ascending codes = n :: m :: rest := by
  obtain ⟨-, hmem⟩ := ascending_spec codes
  rw [← hmem] at ha hb
  match hcodes : ascending codes with
  | [] => simp [hcodes] at ha
  | [n] =>
    rw [hcodes, List.mem_singleton] at ha hb
    exact absurd (ha.trans hb.symm) hne
  | n :: m :: rest => exact ⟨n, m, rest, rfl⟩

end PatternLint.Rx
