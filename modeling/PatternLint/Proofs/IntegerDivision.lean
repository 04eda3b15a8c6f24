import Mathlib.Algebra.Order.Group.Unbundled.Int
import PatternLint.Proofs.NearestDoubles
import PatternLint.Proofs.SetArguments

/-! Quotient and remainder of two integers. The quotient is exact, but the remainder is that of the
doubles nearest to them, so that the two fit together where both integers are doubles. -/

namespace PatternLint.Decimal

variable {a b n d : Nat}

/-- An integer of at most 53 significant bits. -/
def FitsDouble (n : Nat) : Prop :=
  ∃ m k, n = m * pow2 k ∧ m < pow2 53

/-- The unit of the last bit that the double nearest to an integer has. -/
def lastBit (n : Nat) : Nat :=
  pow2 (n.size - 53)

theorem lastBit_pos (n : Nat) : 0 < lastBit n :=
  pow2_pos _

theorem FitsDouble.lastBit_dvd (h : FitsDouble d) (hle : n ≤ d) : lastBit n ∣ d := by
  obtain ⟨m, k, rfl, hm⟩ := h
  have hlt : n < 2 ^ (53 + k) := by
    rw [Nat.pow_add]
    exact Nat.lt_of_le_of_lt hle (Nat.mul_lt_mul_of_pos_right hm (pow2_pos k))
  have hsize := Nat.size_le.mpr hlt
  exact Nat.dvd_mul_left_of_dvd (Nat.pow_dvd_pow 2 (by omega)) m

theorem nearestWhole_one (n : Nat) : nearestWhole n 1 = roundDiv n (lastBit n) * lastBit n := by
  obtain rfl | hn := Nat.eq_zero_or_pos n
  · simp [roundDiv]
  have he := gridExponent_eq Nat.one_pos (Nat.div_one n ▸ hn)
  rw [Nat.div_one] at he
  rw [nearestWhole, wholePart, gridSignificand, he, Nat.one_mul]
  obtain hlt | hge := Nat.lt_or_ge n.size 53
  · have hbit : lastBit n = 1 := by
      rw [lastBit, Nat.sub_eq_zero_of_le (Nat.le_of_lt hlt)]
      rfl
    rw [@pow2_toNat_of_nonpos (n.size - 53) (by omega), hbit, roundDiv_one, roundDiv_one,
      Nat.mul_one, Nat.mul_div_cancel _ (pow2_pos _), Nat.mul_one]
  · have hbit : pow2 ((n.size : Int) - 53).toNat = lastBit n := congrArg pow2 (by omega)
    rw [pow2_toNat_of_nonpos (by omega), hbit, Nat.mul_one, Nat.div_one]

theorem nearestWhole_le (h : n ≤ d) (hd : FitsDouble d) : nearestWhole n 1 ≤ d := by
  obtain ⟨c, rfl⟩ := hd.lastBit_dvd h
  rw [nearestWhole_one, Nat.mul_comm]
  rw [Nat.mul_comm] at h
  exact Nat.mul_le_mul_left _ (roundDiv_le (lastBit_pos n) h)

theorem FitsDouble.nearestWhole_eq (h : FitsDouble n) : nearestWhole n 1 = n := by
  obtain ⟨c, hc⟩ := h.lastBit_dvd (Nat.le_refl n)
  refine Nat.le_antisymm (nearestWhole_le (Nat.le_refl n) h) ?_
  have hle : c ≤ roundDiv n (lastBit n) := le_roundDiv (lastBit_pos n) (by rw [Nat.mul_comm, ← hc])
  rw [nearestWhole_one]
  calc n = c * lastBit n := by rw [Nat.mul_comm, ← hc]
    _ ≤ roundDiv n (lastBit n) * lastBit n := Nat.mul_le_mul_right _ hle

theorem fitsDouble_nearestWhole (n : Nat) : FitsDouble (nearestWhole n 1) := by
  have hle : roundDiv n (lastBit n) ≤ pow2 53 := by
    refine roundDiv_le (lastBit_pos n) ?_
    rw [lastBit, ← pow2_add]
    exact Nat.le_trans (Nat.le_of_lt n.lt_size_self) (pow2_le (by omega))
  rw [nearestWhole_one]
  obtain hlt | heq := Nat.lt_or_eq_of_le hle
  · exact ⟨_, _, rfl, hlt⟩
  · refine ⟨pow2 52, n.size - 53 + 1, ?_, by decide⟩
    rw [heq, lastBit, pow2_succ (n.size - 53), pow2_succ 52, Nat.mul_assoc, Nat.mul_comm 2]

theorem nearestWhole_pos (hn : 0 < n) : 0 < nearestWhole n 1 := by
  obtain ⟨j, hj, hlow, -⟩ := size_bounds hn
  have hle : lastBit n ≤ n := Nat.le_trans (pow2_le (by omega)) hlow
  have hone : 1 ≤ roundDiv n (lastBit n) := le_roundDiv (lastBit_pos n) (by rwa [Nat.one_mul])
  rw [nearestWhole_one]
  exact Nat.mul_pos hone (lastBit_pos n)

theorem fitsDouble_of_dvd {m k : Nat} (hdvd : pow2 k ∣ n) (hlt : n < m * pow2 k)
    (hm : m < pow2 53) : FitsDouble n := by
  obtain ⟨c, rfl⟩ := hdvd
  rw [Nat.mul_comm] at hlt
  exact ⟨c, k, Nat.mul_comm _ _, Nat.lt_trans (Nat.lt_of_mul_lt_mul_right hlt) hm⟩

/-- The remainder of two doubles is a double again: it is a multiple of the finer of their
units, and less than either. -/
theorem FitsDouble.mod (ha : FitsDouble a) (hb : FitsDouble b) : FitsDouble (a % b) := by
  obtain hlt | hge := Nat.lt_or_ge a b
  · rwa [Nat.mod_eq_of_lt hlt]
  obtain rfl | hpos := Nat.eq_zero_or_pos b
  · rwa [Nat.mod_zero]
  have hmod := Nat.mod_lt a hpos
  obtain ⟨m, i, rfl, hm⟩ := ha
  obtain ⟨m', j, rfl, hm'⟩ := hb
  obtain hij | hji := Nat.le_total i j
  · have hdvd := Nat.dvd_mul_left_of_dvd (Nat.pow_dvd_pow 2 hij) m'
    exact fitsDouble_of_dvd ((Nat.dvd_mod_iff hdvd).mpr (Nat.dvd_mul_left _ _))
      (Nat.lt_of_lt_of_le hmod hge) hm
  · have hdvd := Nat.dvd_mul_left_of_dvd (Nat.pow_dvd_pow 2 hji) m
    exact fitsDouble_of_dvd ((Nat.dvd_mod_iff (Nat.dvd_mul_left _ _)).mpr hdvd) hmod hm'

end PatternLint.Decimal

namespace PatternLint.Primitive

open Rx (except_bind_eq_ok)
open Decimal

variable {a b n : Int} {v : Value}

/-- The integer that the double nearest to an integer stands for. -/
def nearestInt (n : Int) : Int :=
  n.sign * nearestWhole n.natAbs 1

theorem natAbs_nearestInt (n : Int) : (nearestInt n).natAbs = nearestWhole n.natAbs 1 := by
  obtain rfl | hn := eq_or_ne n 0
  · rfl
  · rw [nearestInt, Int.natAbs_mul, Int.natAbs_sign_of_ne_zero hn, Nat.one_mul, Int.natAbs_natCast]

theorem sign_nearestInt (n : Int) : (nearestInt n).sign = n.sign := by
  obtain rfl | hn := eq_or_ne n 0
  · rfl
  · have hpos := nearestWhole_pos (Int.natAbs_pos.mpr hn)
    rw [nearestInt, Int.sign_mul, Int.sign_sign, Int.sign_natCast_of_ne_zero (Nat.ne_of_gt hpos),
      Int.mul_one]

theorem nearestInt_eq (h : FitsDouble n.natAbs) : nearestInt n = n := by
  rw [nearestInt, h.nearestWhole_eq, Int.sign_mul_natAbs]

theorem rounded_ok {r : Int} (h : rounded n = .ok r) : r = nearestInt n := by
  obtain ⟨x, hx, h⟩ := except_bind_eq_ok.mp h
  have hnearest : nearest? (n < 0) n.natAbs 1 = some x := by
    unfold Number.round ofInt? at hx
    dsimp only at hx
    split at hx
    · cases hx
      assumption
    · cases hx
  cases (truncateFloat_nearest? (by decide) hnearest).symm.trans h
  unfold nearestInt
  obtain hneg | rfl | hpos := Int.lt_trichotomy n 0
  · rw [if_pos (decide_eq_true hneg), Int.sign_eq_neg_one_of_neg hneg, Int.neg_one_mul]
  · rfl
  · rw [if_neg (by simp; omega), Int.sign_eq_one_of_pos hpos, Int.one_mul]

/-- Integers that are not beyond the largest double are rounded. -/
theorem rounded_eq (h : (ofInt? n).isSome) : rounded n = .ok (nearestInt n) := by
  obtain ⟨x, hx⟩ := Option.isSome_iff_exists.mp h
  have hround : (Number.int n).round = .ok x := by
    unfold Number.round
    dsimp only
    rw [hx]
  obtain ⟨r, hr⟩ : ∃ r, rounded n = .ok r := by
    unfold rounded
    rw [hround]
    exact ⟨_, truncateFloat_nearest? (by decide) hx⟩
  rw [hr, rounded_ok hr]

theorem remainder_ints (a b : Int) : remainder [.int a, .int b] = (do
    let m ← rounded a
    let n ← rounded b
    if n = 0 then .error .zeroRemainder else return .int (m.tmod n)) :=
  rfl

theorem remainder_ok (h : remainder [.int a, .int b] = .ok v) :
    v = .int ((nearestInt a).tmod (nearestInt b)) := by
  rw [remainder_ints] at h
  obtain ⟨m, hm, h⟩ := except_bind_eq_ok.mp h
  obtain ⟨n, hn, h⟩ := except_bind_eq_ok.mp h
  split at h
  · cases h
  · cases h
    rw [rounded_ok hm, rounded_ok hn]

theorem quotient_ints (a b : Int) : quotient [.int a, .int b]
    = if b = 0 then .error (.signal .divisionByZero) else .ok (.int (a.tdiv b)) := by
  have hquotient : quotient [.int a, .int b] =
      ((Number.int a).div (.int b) >>= pure) >>= fun n => pure n.toValue := rfl
  rw [hquotient]
  unfold Number.div
  dsimp only
  split <;> rfl

theorem tmod_eq_tmod_iff {m : Int} (hsign : m.sign = a.sign) : m.tmod b = a.tmod b ↔ b ∣ m - a := by
  have hnonneg {m a : Int} (hm : 0 ≤ m) (ha : 0 ≤ a) : m.tmod b = a.tmod b ↔ b ∣ m - a := by
    rw [Int.tmod_eq_emod_of_nonneg hm, Int.tmod_eq_emod_of_nonneg ha,
      Int.emod_eq_emod_iff_emod_sub_eq_zero, Int.dvd_iff_emod_eq_zero]
  by_cases ha : 0 ≤ a
  · exact hnonneg (Int.sign_nonneg_iff.mp (hsign ▸ Int.sign_nonneg_iff.mpr ha)) ha
  · have hm : ¬ 0 ≤ m := fun hm => ha (Int.sign_nonneg_iff.mp (hsign ▸ Int.sign_nonneg_iff.mpr hm))
    have hneg := hnonneg (m := -m) (a := -a) (by omega) (by omega)
    rwa [Int.neg_tmod, Int.neg_tmod, Int.neg_inj,
      show -m - -a = -(m - a) by omega, Int.dvd_neg] at hneg

/-- The remainder is less than the divisor: it is a double, and the divisor is
rounded up past no double. -/
theorem natAbs_tmod_nearestInt_lt (hb : b ≠ 0) :
    ((nearestInt a).tmod (nearestInt b)).natAbs < b.natAbs := by
  have hpos := nearestWhole_pos (Int.natAbs_pos.mpr hb)
  rw [Int.natAbs_tmod, natAbs_nearestInt, natAbs_nearestInt]
  have hfits := (fitsDouble_nearestWhole a.natAbs).mod (fitsDouble_nearestWhole b.natAbs)
  by_contra hle
  have hreached := nearestWhole_le (Nat.le_of_not_lt hle) hfits
  exact Nat.not_le_of_lt (Nat.mod_lt _ hpos) hreached

/-- Quotient and remainder fit together where both integers are doubles. The remainder has always
the sign of the dividend and is less than the divisor. -/
theorem quotient_remainder (a b : Int) (q r : Value) (hb : b ≠ 0)
    (hq : quotient [.int a, .int b] = .ok q) (hr : remainder [.int a, .int b] = .ok r) :
    ∃ m n : Int, q = .int m ∧ r = .int n ∧ |n| < |b| ∧ (n = 0 ∨ n.sign = a.sign) ∧
      (FitsDouble b.natAbs → (m * b + n = a ↔ b ∣ nearestInt a - a)) ∧
      (FitsDouble a.natAbs → FitsDouble b.natAbs → m * b + n = a) := by
  rw [quotient_ints, if_neg hb] at hq
  cases hq
  rw [remainder_ok hr]
  have hexact {n : Int} : a.tdiv b * b + n = a ↔ n = a.tmod b := by
    have := Int.tdiv_mul_add_tmod a b
    omega
  refine ⟨_, _, rfl, rfl, ?_, ?_, fun hfits => ?_, fun ha hfits => ?_⟩
  · have := natAbs_tmod_nearestInt_lt (a := a) hb
    rw [Int.abs_eq_natAbs, Int.abs_eq_natAbs]
    omega
  · have hsign := Int.sign_tmod (nearestInt a) (nearestInt b)
    rw [sign_nearestInt] at hsign
    split at hsign
    · exact .inl (Int.sign_eq_zero_iff_zero.mp hsign)
    · exact .inr hsign
  · rw [hexact, nearestInt_eq hfits]
    exact tmod_eq_tmod_iff (sign_nearestInt a)
  · rw [hexact, nearestInt_eq ha, nearestInt_eq hfits]

/-- Both integers have more than 53 bits here, but no more than 53 of them are significant. -/
theorem wideDoubles_restored : ∃ m n : Int,
    quotient [.int (-1152921504606847232), .int 9007199254741008] = .ok (.int m) ∧
      remainder [.int (-1152921504606847232), .int 9007199254741008] = .ok (.int n) ∧ n ≠ 0 ∧
      |n| < |9007199254741008| ∧ n.sign = (-1152921504606847232 : Int).sign ∧
      m * 9007199254741008 + n = -1152921504606847232 := by
  have hdividend : FitsDouble (-1152921504606847232 : Int).natAbs :=
    ⟨4503599627370497, 8, rfl, by decide⟩
  have hdivisor : FitsDouble (9007199254741008 : Int).natAbs := ⟨562949953421313, 4, rfl, by decide⟩
  have hq : quotient [.int (-1152921504606847232), .int 9007199254741008] = .ok (.int (-127)) :=
    quotient_ints _ _
  have hr : remainder [.int (-1152921504606847232), .int 9007199254741008]
      = .ok (.int (-9007199254739216)) := by
    rw [remainder_ints, rounded_eq (by decide), rounded_eq (by decide), nearestInt_eq hdividend,
      nearestInt_eq hdivisor]
    rfl
  obtain ⟨m, n, hm, hn, hlt, hsign, -, hexact⟩ := quotient_remainder _ _ _ _ (by decide) hq hr
  cases hm
  cases hn
  exact ⟨_, _, hq, hr, by decide, hlt, hsign.resolve_left (by decide), hexact hdividend hdivisor⟩

/-- The least integer that is no double is rounded down to an even one. -/
theorem oddDividend_lost :
    quotient [.int 9007199254740993, .int 2] = .ok (.int 4503599627370496) ∧
      remainder [.int 9007199254740993, .int 2] = .ok (.int 0) ∧
      (4503599627370496 * 2 + 0 : Int) ≠ 9007199254740993 := by
  refine ⟨quotient_ints _ _, ?_, by decide⟩
  rw [remainder_ints, rounded_eq (by decide), rounded_eq (by decide)]
  rfl

end PatternLint.Primitive
