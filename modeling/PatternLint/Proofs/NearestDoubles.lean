import Mathlib
import PatternLint.Decimal.Double
import PatternLint.Primitive.Number

/-! The bits of a finite double. A significand and an exponent in their range are packed into bits,
and what is read from these bits is the same again. -/

namespace PatternLint.Decimal

open Float.Model Float.Model.UnpackedFloat

/-! ### The parts of the bits -/

/-- The bits of a double are those it was made of, unless these are for no finite number. -/
theorem toBits_ofBits {n : UInt64} (h : n.toNat / 2 ^ 52 % 2048 ≠ 2047) :
    (Float.ofBits n).toBits = n := by
  have hfinite : ¬ @isNaNBits Format.binary64 n.toBitVec := by
    intro hnan
    have hfield := congrArg BitVec.toNat (of_decide_eq_true hnan).1
    simp only [unpackExponent, BitVec.toNat_cast, BitVec.extractLsb_toNat,
      Nat.shiftRight_eq_div_pow] at hfield
    exact h hfield
  have hpack := @pack_unpack Format.binary64 n.toBitVec (by decide)
  exact congrArg UInt64.ofBitVec (hpack.trans (if_neg hfinite))

theorem toBits_toNat {n : Nat} (hlt : n < 2 ^ 64) (hfinite : n / 2 ^ 52 % 2048 ≠ 2047) :
    (Float.ofBits (UInt64.ofNat n)).toBits.toNat = n := by
  have htoNat : (UInt64.ofNat n).toNat = n := UInt64.toNat_ofNat_of_lt' hlt
  rw [toBits_ofBits (by rwa [htoNat]), htoNat]

/-- A finite double with its sign, the field of its exponent and its fraction. -/
theorem ofFloat_ofBits {n field fraction : Nat} (negative : Bool) (hfield : field < 2047)
    (hfraction : fraction < 2 ^ 52)
    (hn : n = (if negative then 2 ^ 63 else 0) + (field * 2 ^ 52 + fraction)) :
    Double.ofFloat (Float.ofBits (UInt64.ofNat n)) =
      .finite (if field = 0 then ⟨negative, fraction, -1074⟩
      else ⟨negative, fraction + pow2 52, (field : Int) - 1075⟩) := by
  have hsign : (if negative then 2 ^ 63 else 0) = negative.toNat * 2 ^ 63 := by
    cases negative <;> rfl
  have hle := negative.toNat_le
  have hbits : n / pow2 52 % 2048 = field ∧ n % pow2 52 = fraction ∧ n < 2 ^ 64 := by
    rw [show pow2 52 = 2 ^ 52 from rfl]
    omega
  have hnegative : decide (n ≥ pow2 63) = negative := by
    rw [hn, show pow2 63 = 2 ^ 63 from rfl]
    cases negative <;> simp
    omega
  unfold Double.ofFloat
  dsimp only
  rw [toBits_toNat hbits.2.2 (by rw [show 2 ^ 52 = pow2 52 from rfl]; omega), hbits.1, hbits.2.1,
    hnegative, if_neg (Nat.ne_of_lt hfield)]
  split <;> rfl

/-! ### A significand and an exponent -/

/-- The significand and the exponent of a double: the significand has 53 bits, or less at the least
exponent. -/
structure Canonical (significand : Nat) (exponent : Int) : Prop where
  lt : significand < 2 ^ 53
  low : -1074 ≤ exponent
  high : exponent ≤ 971
  least : significand < 2 ^ 52 → exponent = -1074

variable {significand : Nat} {exponent : Int}

theorem ofFloat_encode (h : Canonical significand exponent) (negative : Bool) :
    Double.ofFloat (encode negative significand exponent) =
      .finite ⟨negative, significand, exponent⟩ := by
  obtain ⟨hlt, hlow, hhigh, hleast⟩ := h
  unfold encode
  by_cases hsmall : significand < 2 ^ 52
  · simp only [if_pos (show significand < pow2 52 from hsmall)]
    have hbits : (if negative then pow2 63 else 0) + significand
        = (if negative then 2 ^ 63 else 0) + (0 * 2 ^ 52 + significand) := by
      rw [Nat.zero_mul, Nat.zero_add]
      rfl
    rw [ofFloat_ofBits negative (by decide) hsmall hbits, if_pos rfl, hleast hsmall]
  · obtain ⟨field, hfield⟩ : ∃ field : Nat, exponent = (field : Int) - 1075 :=
      ⟨(exponent + 1075).toNat, by omega⟩
    obtain ⟨fraction, rfl⟩ := Nat.exists_eq_add_of_le' (Nat.le_of_not_lt hsmall)
    have htoNat : (exponent + 1075).toNat = field := by omega
    simp only [if_neg (show ¬ fraction + 2 ^ 52 < pow2 52 from hsmall)]
    rw [show pow2 52 = 2 ^ 52 from rfl, htoNat, Nat.add_sub_cancel, show pow2 63 = 2 ^ 63 from rfl,
      ofFloat_ofBits negative (by omega) (by omega) rfl, if_neg (by omega), hfield]
    rfl

end PatternLint.Decimal

/-! What is left of a ratio on its way through the double nearest to it: the integer part of that
double, which may be one more than the integer part of the ratio. -/

namespace PatternLint.Decimal

variable {num den m n : Nat} {k : Int} {negative : Bool} {x : Float}

/-! ### Rounding a quotient -/

theorem roundDiv_bounds (num den : Nat) :
    num / den ≤ roundDiv num den ∧ roundDiv num den ≤ num / den + 1 := by
  unfold roundDiv
  dsimp only
  split <;> omega

theorem le_roundDiv (hden : 0 < den) (h : m * den ≤ num) : m ≤ roundDiv num den :=
  Nat.le_trans ((Nat.le_div_iff_mul_le hden).mpr h) (roundDiv_bounds num den).1

/-- The even number is reached from half a unit below it on. -/
theorem le_roundDiv_iff (hden : 0 < den) (heven : m % 2 = 0) :
    m ≤ roundDiv num den ↔ 2 * (m * den) ≤ 2 * num + den := by
  have hnum := Nat.div_add_mod' num den
  have hmod := Nat.mod_lt num hden
  unfold roundDiv
  dsimp only
  generalize num / den = q at *
  generalize num % den = r at *
  subst hnum
  obtain hlt | rfl | hgt : m ≤ q ∨ m = q + 1 ∨ q + 2 ≤ m := by omega
  · have := Nat.mul_le_mul_right den hlt
    refine iff_of_true ?_ (by omega)
    split <;> omega
  · rw [Nat.add_one_mul q den]
    simp only [Bool.or_eq_true, Bool.and_eq_true, beq_iff_eq, decide_eq_true_eq]
    split <;> omega
  · have := Nat.mul_le_mul_right den hgt
    rw [Nat.add_mul] at this
    refine iff_of_false ?_ (by omega)
    split <;> omega

theorem roundDiv_le (hden : 0 < den) (h : num ≤ m * den) : roundDiv num den ≤ m := by
  obtain hlt | hle := Nat.lt_or_ge (num / den) m
  · exact Nat.le_trans (roundDiv_bounds num den).2 hlt
  · -- the quotient is exact
    have hnum := Nat.div_add_mod' num den
    have := Nat.mul_le_mul_right den hle
    have hmod : num % den = 0 := by omega
    have hdiv : num / den ≤ m := Nat.div_le_of_le_mul (by rwa [Nat.mul_comm])
    have hzero : (0 == den) = false := by
      rw [beq_eq_false_iff_ne]
      omega
    simpa [roundDiv, hmod, hzero] using hdiv

@[simp] theorem roundDiv_one (n : Nat) : roundDiv n 1 = n := by
  simp [roundDiv, Nat.mod_one]

/-! ### The binary logarithm of a ratio -/

/-- An inequality between two numbers that are shifted stays when the
difference of the shifts does. -/
theorem shifted_le {a b i j i' j' : Nat} (h : a * pow2 i ≤ b * pow2 j) (hshift : i' + j ≤ i + j') :
    a * pow2 i' ≤ b * pow2 j' := by
  refine Nat.le_of_mul_le_mul_right ?_ (pow2_pos j)
  calc a * pow2 i' * pow2 j
    _ = a * pow2 (i' + j) := by rw [Nat.mul_assoc, ← pow2_add]
    _ ≤ a * pow2 (i + j') := Nat.mul_le_mul_left _ (pow2_le hshift)
    _ = a * pow2 i * pow2 j' := by rw [Nat.mul_assoc, ← pow2_add]
    _ ≤ b * pow2 j * pow2 j' := Nat.mul_le_mul_right _ h
    _ = b * pow2 j' * pow2 j := Nat.mul_right_comm _ _ _

theorem shifted_lt {a b i j i' j' : Nat} (h : a * pow2 i < b * pow2 j) (hshift : i' + j ≤ i + j') :
    a * pow2 i' < b * pow2 j' :=
  Nat.lt_of_not_le fun hle => Nat.not_lt_of_le (shifted_le hle (by omega)) h

/-- Of the two shifts that a signed shift stands for, the one that it is not does nothing. -/
theorem pow2_toNat_of_nonpos (h : k ≤ 0) : pow2 k.toNat = 1 := by
  rw [Int.toNat_of_nonpos h]
  rfl

theorem log2_bounds (hn : 0 < n) : pow2 n.log2 ≤ n ∧ n < pow2 (n.log2 + 1) :=
  ⟨Nat.log2_self_le (Nat.ne_of_gt hn), Nat.lt_log2_self⟩

/-- The logarithm is the difference of the logarithms or one less. -/
theorem floorLog2_eq (h : k = (num.log2 : Int) - den.log2) : floorLog2 num den =
    if den * pow2 k.toNat ≤ num * pow2 (-k).toNat then k else k - 1 := by
  subst h
  unfold floorLog2
  dsimp only
  split
  · rename_i hpos
    rw [pow2_toNat_of_nonpos (Int.neg_nonpos_of_nonneg hpos), Nat.mul_one]
  · rename_i hneg
    rw [pow2_toNat_of_nonpos (Int.le_of_not_le hneg), Nat.mul_one]

theorem floorLog2_le (hnum : 0 < num) (hden : 0 < den) :
    den * pow2 (floorLog2 num den).toNat ≤ num * pow2 (-floorLog2 num den).toNat := by
  have hbelow : den * pow2 num.log2 ≤ num * pow2 (den.log2 + 1) :=
    Nat.mul_comm num _ ▸ Nat.mul_le_mul (Nat.le_of_lt (log2_bounds hden).2) (log2_bounds hnum).1
  rw [floorLog2_eq rfl]
  split
  · assumption
  · exact shifted_le hbelow (by omega)

theorem lt_floorLog2 (hnum : 0 < num) (hden : 0 < den) :
    num * pow2 (-(floorLog2 num den + 1)).toNat < den * pow2 (floorLog2 num den + 1).toNat := by
  have habove : num * pow2 den.log2 < den * pow2 (num.log2 + 1) := by
    rw [Nat.mul_comm den]
    exact Nat.mul_lt_mul_of_lt_of_le (log2_bounds hnum).2 (log2_bounds hden).1 hden
  rw [floorLog2_eq rfl]
  split
  · exact shifted_lt habove (by omega)
  · rename_i hlt
    rw [Int.sub_add_cancel]
    exact Nat.lt_of_not_le hlt

/-- The bounds determine the logarithm. -/
theorem floorLog2_unique (hden : 0 < den) (hle : den * pow2 k.toNat ≤ num * pow2 (-k).toNat)
    (hlt : num * pow2 (-(k + 1)).toNat < den * pow2 (k + 1).toNat) : floorLog2 num den = k := by
  have hnum : 0 < num := Nat.pos_of_mul_pos_right
    (Nat.lt_of_lt_of_le (Nat.mul_pos hden (pow2_pos _)) hle)
  obtain hbelow | heq | habove := Int.lt_trichotomy (floorLog2 num den) k
  · exact absurd (shifted_le hle (by omega)) (Nat.not_le_of_lt (lt_floorLog2 hnum hden))
  · exact heq
  · exact absurd (shifted_le (floorLog2_le hnum hden) (by omega)) (Nat.not_le_of_lt hlt)

/-! ### The double nearest to a ratio -/

/-- The exponent of the nearest double before its significand is rounded. -/
def gridExponent (num den : Nat) : Int :=
  max (floorLog2 num den - 52) (-1074)

/-- The rounded significand, which may have one bit too many. -/
def gridSignificand (num den : Nat) : Nat :=
  let e := gridExponent num den
  roundDiv (num * pow2 (-e).toNat) (den * pow2 e.toNat)

theorem nearest?_eq (hnum : num ≠ 0) : nearest? negative num den =
    let (m, e) := if gridSignificand num den = pow2 53 then (pow2 52, gridExponent num den + 1)
      else (gridSignificand num den, gridExponent num den)
    if e > 971 then none else some (encode negative m e) := by
  have hsignificand : gridSignificand num den = if gridExponent num den ≥ 0
      then roundDiv num (den * pow2 (gridExponent num den).toNat)
      else roundDiv (num * pow2 (-gridExponent num den).toNat) den := by
    unfold gridSignificand
    dsimp only
    split
    · rename_i hpos
      rw [pow2_toNat_of_nonpos (Int.neg_nonpos_of_nonneg hpos), Nat.mul_one]
    · rename_i hneg
      rw [pow2_toNat_of_nonpos (Int.le_of_not_le hneg), Nat.mul_one]
  rw [hsignificand]
  unfold nearest?
  rw [if_neg hnum]
  rfl

variable {e : Int}

/-- The integer part of a magnitude. -/
def wholePart (m : Nat) (e : Int) : Nat :=
  m * pow2 e.toNat / pow2 (-e).toNat

theorem truncate_eq (s : Scaled) :
    s.truncate = if s.negative then -(wholePart s.significand s.exponent : Int)
      else wholePart s.significand s.exponent := by
  unfold Scaled.truncate Scaled.ratio wholePart
  split
  · rename_i hpos
    rw [pow2_toNat_of_nonpos (Int.neg_nonpos_of_nonneg hpos)]
  · rename_i hneg
    rw [pow2_toNat_of_nonpos (Int.le_of_not_le hneg), Nat.mul_one]

/-- A significand with one bit too many is halved for the next exponent. -/
theorem wholePart_carry (e : Int) : wholePart (pow2 52) (e + 1) = wholePart (pow2 53) e := by
  unfold wholePart
  rw [pow2_succ 52]
  by_cases hpos : 0 ≤ e
  · rw [show (e + 1).toNat = e.toNat + 1 by omega, show (-(e + 1)).toNat = (-e).toNat by omega,
      pow2_succ e.toNat, Nat.mul_assoc, Nat.mul_comm 2]
  · rw [show (e + 1).toNat = 0 by omega, show e.toNat = 0 by omega,
      show (-e).toNat = (-(e + 1)).toNat + 1 by omega, pow2_succ (-(e + 1)).toNat,
      Nat.mul_right_comm, Nat.mul_div_mul_right _ _ (by decide)]

/-- The integer part of the double nearest to a ratio. -/
def nearestWhole (num den : Nat) : Nat :=
  wholePart (gridSignificand num den) (gridExponent num den)

@[simp] theorem nearestWhole_zero (den : Nat) : nearestWhole 0 den = 0 := by
  simp [nearestWhole, gridSignificand, wholePart, roundDiv]

theorem gridSignificand_le (hnum : 0 < num) (hden : 0 < den) :
    gridSignificand num den ≤ pow2 53 := by
  have hlt := lt_floorLog2 hnum hden
  refine roundDiv_le (Nat.mul_pos hden (pow2_pos _)) ?_
  rw [Nat.mul_left_comm, ← pow2_add]
  refine Nat.le_of_lt (shifted_lt hlt ?_)
  unfold gridExponent
  omega

theorem le_gridSignificand (hnum : 0 < num) (hden : 0 < den) (he : gridExponent num den ≠ -1074) :
    pow2 52 ≤ gridSignificand num den := by
  have hle := floorLog2_le hnum hden
  refine le_roundDiv (Nat.mul_pos hden (pow2_pos _)) ?_
  rw [Nat.mul_left_comm, ← pow2_add]
  refine shifted_le hle ?_
  unfold gridExponent at *
  omega

/-- The nearest double, cut to an integer. -/
theorem truncateFloat_nearest? (hden : 0 < den) (h : nearest? negative num den = some x) :
    Number.truncateFloat x = .ok (if negative then -(nearestWhole num den : Int)
      else nearestWhole num den) := by
  suffices hfinite : ∃ m e, Canonical m e ∧ x = encode negative m e ∧
      wholePart m e = nearestWhole num den by
    obtain ⟨m, e, hcanonical, rfl, hwhole⟩ := hfinite
    rw [Number.truncateFloat, ofFloat_encode hcanonical]
    dsimp only
    rw [truncate_eq, hwhole]
  obtain rfl | hnum := Nat.eq_zero_or_pos num
  · cases h
    refine ⟨0, -1074, ⟨by decide, by decide, by decide, fun _ => rfl⟩, rfl, ?_⟩
    rw [nearestWhole_zero, wholePart, Nat.zero_mul, Nat.zero_div]
  have hle := gridSignificand_le hnum hden
  have hge := le_gridSignificand hnum hden
  have hlow : -1074 ≤ gridExponent num den := Int.le_max_right _ _
  rw [nearest?_eq (Nat.ne_of_gt hnum)] at h
  by_cases hcarry : gridSignificand num den = pow2 53
  · rw [if_pos hcarry] at h
    dsimp only at h
    split at h
    · cases h
    · cases h
      refine ⟨pow2 52, gridExponent num den + 1,
        ⟨by decide, by omega, by omega, fun h => absurd h (by decide)⟩,
        rfl, ?_⟩
      rw [wholePart_carry, ← hcarry]
      rfl
  · rw [if_neg hcarry] at h
    dsimp only at h
    split at h
    · cases h
    · cases h
      refine ⟨_, _, ⟨Nat.lt_of_le_of_ne hle hcarry, hlow, by omega, fun hsmall => ?_⟩, rfl, rfl⟩
      by_contra he
      exact Nat.not_le_of_lt hsmall (hge he)

/-! ### How far the integer part is off -/

theorem pow2_le_nearestWhole (hnum : 0 < num) (hden : 0 < den) (he : 0 ≤ gridExponent num den) :
    pow2 52 ≤ nearestWhole num den := by
  have hle := le_gridSignificand hnum hden (by omega)
  rw [nearestWhole, wholePart, pow2_toNat_of_nonpos (Int.neg_nonpos_of_nonneg he), Nat.div_one]
  exact Nat.le_trans hle (Nat.le_mul_of_pos_right _ (pow2_pos _))

/-- An integer is reached from a distance on that is half a unit of the last bit. -/
theorem le_nearestWhole_iff (hden : 0 < den) (he : gridExponent num den < 0) :
    n ≤ nearestWhole num den ↔
      pow2 ((-gridExponent num den).toNat + 1) * (n * den - num) ≤ den := by
  obtain ⟨p, hp⟩ : ∃ p, (-gridExponent num den).toNat = p + 1 :=
    ⟨(-gridExponent num den).toNat - 1, by omega⟩
  -- the integer is an even multiple of the last bit's unit
  have heven : n * pow2 (p + 1) % 2 = 0 := by
    rw [pow2_succ, ← Nat.mul_assoc, Nat.mul_mod_left]
  have hint : pow2 (p + 1 + 1) * (n * den) = 2 * (n * pow2 (p + 1) * den) := by
    rw [pow2_succ (p + 1), Nat.mul_comm n (pow2 (p + 1)), Nat.mul_comm _ 2, Nat.mul_assoc,
      Nat.mul_assoc]
  have hratio : pow2 (p + 1 + 1) * num = 2 * (num * pow2 (p + 1)) := by
    rw [pow2_succ (p + 1), Nat.mul_comm num, Nat.mul_comm _ 2, Nat.mul_assoc]
  rw [nearestWhole, wholePart, gridSignificand, pow2_toNat_of_nonpos (Int.le_of_lt he), hp,
    Nat.mul_one, Nat.mul_one, Nat.le_div_iff_mul_le (pow2_pos _), le_roundDiv_iff hden heven,
    Nat.mul_sub, hint, hratio, Nat.sub_le_iff_le_add, Nat.add_comm den]

/-- A ratio lies so close below an integer that the nearest double reaches it. -/
def NearAbove (num den : Nat) : Prop :=
  pow2 (54 - (num / den).size) * ((num / den + 1) * den - num) ≤ den

instance : Decidable (NearAbove num den) :=
  inferInstanceAs (Decidable (_ ≤ _))

theorem size_bounds (hn : 0 < n) : ∃ j, n.size = j + 1 ∧ pow2 j ≤ n ∧ n < pow2 (j + 1) := by
  have hsize := Nat.size_pos.mpr hn
  exact ⟨n.size - 1, by omega, Nat.lt_size.mp (by omega), Nat.size_le.mp (by omega)⟩

/-- The exponent of the grid where the ratio is at least one. -/
theorem gridExponent_eq (hden : 0 < den) (hpos : 0 < num / den) :
    gridExponent num den = (num / den).size - 53 := by
  obtain ⟨j, hj, hle, hlt⟩ := size_bounds hpos
  have hlog : floorLog2 num den = j := by
    refine floorLog2_unique hden ?_ ?_
    · rw [Int.toNat_natCast, pow2_toNat_of_nonpos (by omega), Nat.mul_one, Nat.mul_comm]
      exact (Nat.le_div_iff_mul_le hden).mp hle
    · rw [pow2_toNat_of_nonpos (by omega), Nat.mul_one, Nat.mul_comm]
      exact (Nat.div_lt_iff_lt_mul hden).mp hlt
  rw [gridExponent, hlog, hj]
  omega

/-- Where the ratio is less than one and at least a half. -/
theorem gridExponent_half (hlt : num < den) (hle : den ≤ 2 * num) : gridExponent num den = -53 := by
  have hlog : floorLog2 num den = -1 := by
    refine floorLog2_unique (by omega) ?_ ?_
    · change den * 1 ≤ num * 2
      omega
    · change num * 1 < den * 1
      omega
  rw [gridExponent, hlog]
  rfl

theorem nearAbove_iff (hden : 0 < den) (he : gridExponent num den < 0) :
    NearAbove num den ↔ num / den + 1 ≤ nearestWhole num den := by
  rw [le_nearestWhole_iff hden he, NearAbove]
  obtain hzero | hpos := Nat.eq_zero_or_pos (num / den)
  · have hlt : num < den := (Nat.div_eq_zero_iff_lt hden).mp hzero
    rw [hzero, Nat.zero_add, Nat.one_mul]
    by_cases hhalf : den ≤ 2 * num
    · rw [gridExponent_half hlt hhalf]
      rfl
    · -- further off than half of the denominator
      have hfar {p : Nat} : ¬ pow2 (p + 1) * (den - num) ≤ den := by
        have := Nat.mul_le_mul_right (den - num) (pow2_pos p)
        rw [pow2_succ, Nat.mul_right_comm]
        omega
      exact iff_of_false hfar hfar
  · rw [gridExponent_eq hden hpos] at he ⊢
    rw [show (-((num / den).size - 53 : Int)).toNat + 1 = 54 - (num / den).size by omega]

theorem gridExponent_neg_of_lt (h : num < den) : gridExponent num den < 0 := by
  have hlog : floorLog2 num den < 0 := by
    obtain rfl | hnum := Nat.eq_zero_or_pos num
    · rw [floorLog2_eq rfl, Nat.log2_zero]
      have hpos := pow2_pos (((0 : Nat) : Int) - den.log2).toNat
      have hscaled := Nat.mul_pos h hpos
      rw [Nat.zero_mul, if_neg (by omega)]
      omega
    · by_contra hle
      have hreached := floorLog2_le hnum (Nat.zero_lt_of_lt h)
      rw [@pow2_toNat_of_nonpos (-floorLog2 num den) (by omega), Nat.mul_one] at hreached
      have := Nat.le_mul_of_pos_right den (pow2_pos (floorLog2 num den).toNat)
      omega
  rw [gridExponent]
  omega

theorem gridExponent_neg (hden : 0 < den) (hsmall : nearestWhole num den < pow2 52) :
    gridExponent num den < 0 := by
  obtain rfl | hnum := Nat.eq_zero_or_pos num
  · exact gridExponent_neg_of_lt hden
  · exact Int.lt_of_not_ge fun he => Nat.not_le_of_lt hsmall (pow2_le_nearestWhole hnum hden he)

theorem nearestWhole_eq (hden : 0 < den) (he : gridExponent num den < 0) :
    nearestWhole num den = if NearAbove num den then num / den + 1 else num / den := by
  have hlow : num / den ≤ nearestWhole num den := by
    rw [le_nearestWhole_iff hden he, Nat.sub_eq_zero_of_le (Nat.div_mul_le_self num den),
      Nat.mul_zero]
    exact Nat.zero_le _
  have hhigh : ¬ num / den + 2 ≤ nearestWhole num den := by
    have hmod := Nat.lt_div_mul_add hden (a := num)
    have hgap : den < (num / den + 2) * den - num := by
      rw [Nat.add_mul]
      omega
    rw [le_nearestWhole_iff hden he]
    exact Nat.not_le_of_lt (Nat.lt_of_lt_of_le hgap (Nat.le_mul_of_pos_left _ (pow2_pos _)))
  have hnear := nearAbove_iff hden he
  split
  · rename_i habove
    have := hnear.mp habove
    omega
  · rename_i habove
    have := mt hnear.mpr habove
    omega

theorem nearestWhole_eq_zero_iff (hden : 0 < den) :
    nearestWhole num den = 0 ↔ num < den ∧ ¬ NearAbove num den := by
  constructor
  · intro hzero
    rw [nearestWhole_eq hden (gridExponent_neg hden (by rw [hzero]; exact pow2_pos _))] at hzero
    split at hzero
    · cases hzero
    · exact ⟨(Nat.div_eq_zero_iff_lt hden).mp hzero, by assumption⟩
  · rintro ⟨hlt, hnear⟩
    rw [nearestWhole_eq hden (gridExponent_neg_of_lt hlt), if_neg hnear, Nat.div_eq_of_lt hlt]

/-- A ratio of integers with few enough bits never lies that close below an integer. -/
theorem not_nearAbove_of_lt (hden : 0 < den) (hnum : num < pow2 53) (hbits : den < pow2 54) :
    ¬ NearAbove num den := by
  have hmod := Nat.lt_div_mul_add hden (a := num)
  intro hnear
  have hunit : pow2 (54 - (num / den).size) ≤ den := by
    refine Nat.le_trans (Nat.le_mul_of_pos_right _ ?_) hnear
    rw [Nat.add_one_mul]
    omega
  obtain hzero | hpos := Nat.eq_zero_or_pos (num / den)
  · rw [hzero] at hunit
    exact Nat.not_le_of_lt hbits hunit
  · obtain ⟨j, hj, hle, -⟩ := size_bounds hpos
    rw [hj] at hunit
    refine Nat.not_le_of_lt hnum (Nat.le_trans ?_ ((Nat.le_div_iff_mul_le hden).mp hle))
    calc pow2 53
      _ ≤ pow2 (j + (54 - (j + 1))) := pow2_le (by omega)
      _ = pow2 j * pow2 (54 - (j + 1)) := pow2_add _ _
      _ ≤ pow2 j * den := Nat.mul_le_mul_left _ hunit

end PatternLint.Decimal
