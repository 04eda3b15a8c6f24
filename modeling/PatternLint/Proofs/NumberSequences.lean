import Mathlib.Logic.Basic
import PatternLint.Proofs.NearestDoubles
import PatternLint.Proofs.SetArguments

/-! The terms of a number sequence. Their number is the integer part of a double, which
cuts a start that lies beyond the end to zero, and which may be one too many where a term
lies just behind the end. -/

namespace PatternLint.Primitive

open Rx (except_bind_eq_ok)
open Decimal

variable {start finish step : Int} {i n : Nat} {v : Value}

/-- The number lies behind the end in the direction of the step. -/
def Passes (finish step x : Int) : Prop :=
  if 0 < step then finish < x else x < finish

instance (finish step x : Int) : Decidable (Passes finish step x) :=
  inferInstanceAs (Decidable (if 0 < step then finish < x else x < finish))

/-- There is one term too many: the distance to the end is so close below a multiple of the step
that the nearest double reaches it, or the start lies behind the end by less than a step. -/
def Overshoots (start finish step : Int) : Prop :=
  if Passes finish step start then
    (finish - start).natAbs < step.natAbs ∧ ¬ NearAbove (finish - start).natAbs step.natAbs
  else NearAbove (finish - start).natAbs step.natAbs

instance (start finish step : Int) : Decidable (Overshoots start finish step) :=
  inferInstanceAs (Decidable (if Passes finish step start then
    (finish - start).natAbs < step.natAbs ∧ ¬ NearAbove (finish - start).natAbs step.natAbs
  else NearAbove (finish - start).natAbs step.natAbs))

theorem not_overshoots (hstep : step ≠ 0) (hstart : ¬ Passes finish step start)
    (hdistance : (finish - start).natAbs < pow2 53) (hbits : step.natAbs < pow2 54) :
    ¬ Overshoots start finish step := by
  rw [Overshoots, if_neg hstart]
  exact not_nearAbove_of_lt (Int.natAbs_pos.mpr hstep) hdistance hbits

/-! ### Where the terms are -/

theorem passes_of_start (hstart : Passes finish step start) (i : Nat) :
    Passes finish step (start + i * step) := by
  unfold Passes at *
  split
  · rename_i hpos
    rw [if_pos hpos] at hstart
    have := Int.mul_nonneg (Int.natCast_nonneg i) (Int.le_of_lt hpos)
    omega
  · rename_i hneg
    rw [if_neg hneg] at hstart
    have := Int.mul_nonpos_of_nonneg_of_nonpos (Int.natCast_nonneg i) (Int.not_lt.mp hneg)
    omega

/-- From a start before the end, the terms before the end are as many steps away. -/
theorem not_passes_iff (hstep : step ≠ 0) (hstart : ¬ Passes finish step start) (i : Nat) :
    ¬ Passes finish step (start + i * step) ↔ i ≤ (finish - start).natAbs / step.natAbs := by
  have hscaled : ((i * step.natAbs : Nat) : Int) = i * (step.natAbs : Int) := Int.natCast_mul _ _
  rw [Nat.le_div_iff_mul_le (Int.natAbs_pos.mpr hstep)]
  unfold Passes at *
  split
  · rename_i hpos
    rw [if_pos hpos] at hstart
    rw [Int.natAbs_of_nonneg (Int.le_of_lt hpos)] at hscaled
    omega
  · rename_i hneg
    rw [if_neg hneg] at hstart
    rw [Int.ofNat_natAbs_of_nonpos (Int.not_lt.mp hneg), Int.mul_neg] at hscaled
    omega

/-! ### How many terms there are -/

/-- The terms of a sequence. -/
def terms (start step : Int) (n : Nat) : List Value :=
  (List.range n).map fun i => .int (start + (i : Nat) * step)

theorem numberSequence_ints (start finish step : Int) :
    numberSequence [.int start, .int finish, .int step] = (do
      if (Number.int step).isZero then .error (.signal .zeroIncrement)
      let count := (← Number.truncateFloat (← (Number.int (finish - start)).ratio (.int step))) + 1
      if count > maxLength then .error (.signal .sequenceTooLong)
      Value.ofItems (← (List.range count.toNat).mapM (sequenceItem (.int start) (.int step)))) :=
  rfl

theorem mapM_sequenceItem (start step : Int) (n : Nat) :
    (List.range n).mapM (sequenceItem (.int start) (.int step)) = .ok (terms start step n) :=
  List.mapM_pure (m := Except Fault) (f := fun i => Value.int (start + (i : Nat) * step))

theorem isZero_int : (Number.int step).isZero = true ↔ step = 0 := by
  simp [Number.isZero, Number.order]

/-- The double nearest to the ratio is negative where the start lies behind the end. -/
theorem signed_whole (hstep : step ≠ 0) (whole : Nat) (hwhole : finish = start → whole = 0) :
    (if decide (finish - start < 0) != decide (step < 0) then -(whole : Int) else whole)
      = if Passes finish step start then -(whole : Int) else whole := by
  by_cases heq : finish = start
  · simp [hwhole heq]
  · have hsign : (decide (finish - start < 0) != decide (step < 0)) = true ↔
        Passes finish step start := by
      unfold Passes
      by_cases hpos : 0 < step
      · rw [if_pos hpos, decide_eq_false (by omega : ¬ step < 0), Bool.bne_false,
          decide_eq_true_iff]
        omega
      · rw [if_neg hpos, decide_eq_true (by omega : step < 0), Bool.bne_true, Bool.not_eq_true',
          decide_eq_false_iff_not]
        omega
    exact if_congr hsign rfl rfl

/-- One more than the integer part of the double nearest to the ratio. -/
def termCount (start finish step : Int) : Int :=
  (if Passes finish step start then -(nearestWhole (finish - start).natAbs step.natAbs : Int)
    else nearestWhole (finish - start).natAbs step.natAbs) + 1

/-- What a sequence of integers gives: only the ratio is ever rounded. -/
theorem numberSequence_eq (hstep : step ≠ 0) : numberSequence [.int start, .int finish, .int step] =
    match nearest? (decide (finish - start < 0) != decide (step < 0))
      (finish - start).natAbs step.natAbs with
    | none => .error .wideFloat
    | some _ =>
      if termCount start finish step > maxLength then .error (.signal .sequenceTooLong)
      else Value.ofItems (terms start step (termCount start finish step).toNat) := by
  have hratio : (Number.int (finish - start)).ratio (.int step) =
      match nearest? (decide (finish - start < 0) != decide (step < 0))
        (finish - start).natAbs step.natAbs with
      | none => .error .wideFloat
      | some x => .ok x := by
    unfold Number.ratio
    dsimp only
    rw [if_neg hstep]
    split <;> split <;> simp_all
  rw [numberSequence_ints, if_neg (mt isZero_int.mp hstep), hratio]
  split
  · rfl
  · rename_i x hx
    have hwhole := truncateFloat_nearest? (Int.natAbs_pos.mpr hstep) hx
    have hnone (heq : finish = start) : nearestWhole (finish - start).natAbs step.natAbs = 0 := by
      rw [heq, Int.sub_self]
      exact nearestWhole_zero _
    rw [signed_whole hstep _ hnone] at hwhole
    change Number.truncateFloat x >>= _ = _
    rw [hwhole]
    change (do
      if termCount start finish step > maxLength then .error (.signal .sequenceTooLong)
      Value.ofItems (← (List.range (termCount start finish step).toNat).mapM
        (sequenceItem (.int start) (.int step))) : Except Fault Value) = _
    rw [mapM_sequenceItem]
    split <;> rfl

theorem numberSequence_ok (h : numberSequence [.int start, .int finish, .int step] = .ok v) :
    step ≠ 0 ∧ termCount start finish step ≤ maxLength ∧
      v = .ofList (terms start step (termCount start finish step).toNat) := by
  obtain rfl | hstep := eq_or_ne step 0
  · rw [numberSequence_ints, if_pos (isZero_int.mpr rfl)] at h
    cases h
  · rw [numberSequence_eq hstep] at h
    split at h
    · cases h
    · split at h
      · cases h
      · rename_i hcount
        exact ⟨hstep, Int.not_lt.mp hcount, (Value.ofItems_ok h).2⟩

/-- From a start behind the end there is no term, but for the start where
the ratio is cut to zero. -/
theorem termCount_behind (hstep : step ≠ 0) (hstart : Passes finish step start) :
    (termCount start finish step).toNat = if Overshoots start finish step then 1 else 0 := by
  have hover : Overshoots start finish step ↔
      nearestWhole (finish - start).natAbs step.natAbs = 0 := by
    rw [Overshoots, if_pos hstart, nearestWhole_eq_zero_iff (Int.natAbs_pos.mpr hstep)]
  rw [termCount, if_pos hstart, if_congr hover rfl rfl]
  split <;> omega

/-- From a start before the end there is one term more than there are steps to the end. -/
theorem termCount_before (hstep : step ≠ 0) (hstart : ¬ Passes finish step start)
    (hlength : termCount start finish step ≤ maxLength) :
    (termCount start finish step).toNat = (finish - start).natAbs / step.natAbs + 1
      + if Overshoots start finish step then 1 else 0 := by
  have hden : 0 < step.natAbs := Int.natAbs_pos.mpr hstep
  have hbound : maxLength < pow2 52 := by decide
  have hover : Overshoots start finish step ↔ NearAbove (finish - start).natAbs step.natAbs := by
    rw [Overshoots, if_neg hstart]
  rw [termCount, if_neg hstart] at hlength ⊢
  rw [nearestWhole_eq hden (gridExponent_neg hden (by omega)), if_congr hover rfl rfl]
  generalize (finish - start).natAbs / step.natAbs = whole
  split <;> omega

theorem term_succ (start step : Int) (i : Nat) :
    start + ((i + 1 : Nat) - 1) * step = start + i * step := by
  rw [Int.natCast_add, Int.natCast_one, Int.add_sub_cancel]

/-- The terms are exactly those that do not lie behind the end, but for one more where the
rounded ratio overshoots. -/
theorem numberSequence_terms (start finish step : Int) (v : Value)
    (h : numberSequence [.int start, .int finish, .int step] = .ok v) :
    ∃ n, v = .ofList (terms start step n) ∧
      (¬ Overshoots start finish step →
        ∀ i : Nat, i < n ↔ ¬ Passes finish step (start + i * step)) ∧
      (Overshoots start finish step →
        ∀ i : Nat, i < n ↔ i = 0 ∨ ¬ Passes finish step (start + (i - 1) * step)) := by
  obtain ⟨hstep, hlength, rfl⟩ := numberSequence_ok h
  obtain ⟨steps, hsteps, hbefore⟩ : ∃ steps, (termCount start finish step).toNat
        = steps + (if Overshoots start finish step then 1 else 0) ∧
      ∀ i : Nat, i < steps ↔ ¬ Passes finish step (start + i * step) := by
    by_cases hstart : Passes finish step start
    · refine ⟨0, by rw [termCount_behind hstep hstart, Nat.zero_add], fun i => ?_⟩
      exact iff_of_false (Nat.not_lt_zero i) (not_not.mpr (passes_of_start hstart i))
    · refine ⟨_, termCount_before hstep hstart hlength, fun i => ?_⟩
      rw [not_passes_iff hstep hstart, Nat.lt_succ_iff]
  refine ⟨_, rfl, fun hexact i => ?_, fun hover i => ?_⟩
  · rw [hsteps, if_neg hexact, ← hbefore, Nat.add_zero]
  · rw [hsteps, if_pos hover]
    cases i with
    | zero => exact iff_of_true (Nat.succ_pos steps) (.inl rfl)
    | succ i =>
      rw [term_succ, ← hbefore, Nat.add_lt_add_iff_right, or_iff_right (Nat.succ_ne_zero i)]

theorem downwards_terms : ∃ n,
    numberSequence [.int 10, .int (-7), .int (-5)] =
      .ok (.list [.int 10, .int 5, .int 0, .int (-5)]) ∧
      Value.list [.int 10, .int 5, .int 0, .int (-5)] = .ofList (terms 10 (-5) n) ∧
      ∀ i : Nat, i < n ↔ ¬ Passes (-7) (-5) (10 + i * -5) := by
  have hrun : numberSequence [.int 10, .int (-7), .int (-5)]
      = .ok (.list [.int 10, .int 5, .int 0, .int (-5)]) := by
    rw [numberSequence_eq (by decide)]
    rfl
  obtain ⟨n, hterms, hexact, -⟩ := numberSequence_terms _ _ _ _ hrun
  exact ⟨n, hrun, hterms, hexact (not_overshoots (by decide) (by decide) (by decide) (by decide))⟩

/-- A start behind the end is a term, and so is a term that lies behind the end by one. -/
theorem passedTerms_included :
    numberSequence [.int 5, .int 3, .int 10] = .ok (.list [.int 5]) ∧ Passes 3 10 5 ∧
      numberSequence [.int 0, .int 299999999999999999, .int 100000000000000000] =
        .ok (.list [.int 0, .int 100000000000000000, .int 200000000000000000,
          .int 300000000000000000]) ∧
      Passes 299999999999999999 100000000000000000 300000000000000000 := by
  refine ⟨?_, by decide, ?_, by decide⟩
  all_goals
    rw [numberSequence_eq (by decide)]
    rfl

end PatternLint.Primitive
