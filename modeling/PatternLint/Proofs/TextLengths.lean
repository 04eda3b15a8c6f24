import Mathlib.Data.List.SplitBy
import PatternLint.Primitive.Basic
import PatternLint.Text.Search

/-! How long texts are that are cut out of a text, and those that numbers are written as. -/

namespace PatternLint

namespace Text

theorem length_trimLeft_le (drop : Char → Bool) (cs : List Char) :
    (trimLeft drop cs).length ≤ cs.length :=
  (List.dropWhile_sublist _).length_le

theorem length_trimRight_le (drop : Char → Bool) (cs : List Char) :
    (trimRight drop cs).length ≤ cs.length := by
  rw [trimRight, List.length_reverse, ← @List.length_reverse _ cs]
  exact (List.dropWhile_sublist _).length_le

theorem length_of_mem_words {isSep : Char → Bool} {cs t : List Char} (h : t ∈ words isSep cs) :
    t.length ≤ cs.length := by
  obtain ⟨before, after, hruns⟩ := List.append_of_mem (List.mem_filter.1 h).1
  have hflat := List.flatten_splitBy (fun a b => isSep a == isSep b) cs
  rw [hruns, List.flatten_append, List.flatten_cons] at hflat
  rw [← hflat, List.length_append, List.length_append]
  omega

theorem length_of_mem_splitFrom {sep : List Char} {skip : Nat} {pieces : List (List Char)}
    {piece cs t : List Char} (h : t ∈ splitFrom sep skip pieces piece cs) :
    t ∈ pieces ∨ t.length ≤ piece.length + cs.length := by
  induction cs generalizing skip pieces piece with
  | nil =>
    obtain h | rfl := by simpa [splitFrom] using h
    · exact .inl h
    · exact .inr (by simp)
  | cons c rest ih =>
    rw [splitFrom.eq_def] at h
    dsimp only at h
    rw [List.length_cons]
    split at h
    · exact (ih h).imp id fun h => by omega
    · split at h
      · rcases ih h with h | h
        · obtain rfl | h := List.mem_cons.1 h
          · exact .inr (by simp)
          · exact .inl h
        · exact .inr (by simp at h; omega)
      · exact (ih h).imp id fun h => by simp at h; omega

theorem length_of_mem_split {sep cs t : List Char} (h : t ∈ split sep cs) :
    t.length ≤ cs.length := by
  simpa using length_of_mem_splitFrom h

theorem Numeral.write_length {n : Int} {text : String} (h : Numeral.write n = .ok text) :
    text.length ≤ maxLength := by
  unfold Numeral.write at h
  dsimp only at h
  split at h
  · cases h
  · cases h
    rw [String.length_ofList]
    have : maxDigits < maxLength := by decide
    split
    · rw [List.length_cons]
      omega
    · omega

end Text
namespace Decimal

theorem floorLog2_bounds (num den : Nat) :
    -(den.log2 : Int) - 1 ≤ floorLog2 num den ∧ floorLog2 num den ≤ num.log2 := by
  unfold floorLog2
  dsimp only
  split <;> split <;> omega

theorem floorLog10_bounds {num den : Nat} (hnum : num.log2 < 1100) (hden : den.log2 < 1100) :
    -400 ≤ floorLog10 num den ∧ floorLog10 num den ≤ 400 := by
  have := floorLog2_bounds num den
  unfold floorLog10
  dsimp only
  split
  · omega
  · split <;> omega

theorem onGrid?_le {r : Rounding} {places : Int} {d : Nat} (h : r.onGrid? places = some d) :
    d ≤ r.value * pow10 (-places).toNat + 1 := by
  have hnum : (inUnits r.value r.den places).num ≤ r.value * pow10 (-places).toNat := by
    unfold inUnits
    split
    · exact Nat.le_mul_of_pos_right _ (pow10_pos _)
    · exact Nat.le_refl _
  have hdown := Nat.div_le_self (inUnits r.value r.den places).num
    (inUnits r.value r.den places).den
  unfold Rounding.onGrid? at h
  grind

theorem search_bounds (r : Rounding) (top : Int) (count size : Nat) :
    (r.search top count size).1 ≤ r.value * pow10 (count + size - top).toNat + 1 ∧
      top - (count + size) ≤ (r.search top count size).2 ∧ (r.search top count size).2 ≤ top := by
  induction count generalizing size with
  | zero =>
    have hvalue : r.value / r.den ≤ r.value * pow10 (size - top).toNat :=
      Nat.le_trans (Nat.div_le_self _ _) (Nat.le_mul_of_pos_right _ (pow10_pos _))
    simp only [Rounding.search]
    exact ⟨by simpa using Nat.le_succ_of_le hvalue, by omega, by omega⟩
  | succ count ih =>
    rw [Rounding.search]
    split
    · rename_i d hd
      have hmono : pow10 (-(top - size)).toNat ≤ pow10 (count + 1 + size - top).toNat :=
        Nat.pow_le_pow_right (by decide) (by omega)
      have hle := Nat.mul_le_mul_left r.value hmono
      exact ⟨Nat.le_trans (onGrid?_le hd) (Nat.succ_le_succ hle), by omega, by omega⟩
    · have := ih (size + 1)
      push_cast at this ⊢
      rwa [show (count + 1 + size : Int) = count + (size + 1) by omega]

/-- The significand and the exponent of a double. -/
theorem ofFloat_bounds {x : Float} {s : Scaled} (h : Double.ofFloat x = .finite s) :
    s.significand < pow2 53 ∧ -1074 ≤ s.exponent ∧ s.exponent ≤ 971 := by
  have hfield := Nat.mod_lt (x.toBits.toNat / pow2 52) (by decide : 2048 > 0)
  have hfraction := Nat.mod_lt x.toBits.toNat (pow2_pos 52)
  have htwice : pow2 53 = pow2 52 * 2 := pow2_succ 52
  unfold Double.ofFloat at h
  dsimp only at h
  split at h
  · split at h <;> cases h
  · split at h
    · cases h
      dsimp only
      omega
    · cases h
      dsimp only
      omega

theorem log2_le {n k : Nat} (h : n ≤ pow2 k) : n.log2 ≤ k := by
  obtain rfl | hn := Nat.eq_zero_or_pos n
  · exact Nat.zero_le k
  · have hlt : n < 2 ^ (k + 1) :=
      Nat.lt_of_le_of_lt h (Nat.pow_lt_pow_right (by decide) k.lt_succ_self)
    exact Nat.lt_succ_iff.1 ((Nat.log2_lt (Nat.ne_of_gt hn)).2 hlt)

theorem rounding_bounds {significand : Nat} {exponent : Int} (hs : significand < pow2 53)
    (hlow : -1074 ≤ exponent) (hhigh : exponent ≤ 971) :
    (rounding significand exponent).value ≤ pow2 1024 ∧
      (rounding significand exponent).den ≤ pow2 1076 := by
  have hmul : ∀ k, k ≤ 969 → 4 * significand * pow2 k ≤ pow2 1024 := fun k hk =>
    calc 4 * significand * pow2 k
      _ ≤ 4 * pow2 53 * pow2 k :=
          Nat.mul_le_mul_right _ (Nat.mul_le_mul_left _ (Nat.le_of_lt hs))
      _ = pow2 55 * pow2 k := congrArg (· * pow2 k) (by decide : 4 * pow2 53 = pow2 55)
      _ = pow2 (55 + k) := (pow2_add 55 k).symm
      _ ≤ pow2 1024 := pow2_le (by omega)
  unfold rounding Scaled.ratio
  dsimp only
  split
  · rw [Nat.one_mul]
    exact ⟨hmul _ (by omega), pow2_pos _⟩
  · exact ⟨hmul 0 (by omega), pow2_le (by omega)⟩

/-- The digits of a double and the place of the last one. -/
theorem shortest_bounds {significand : Nat} {exponent : Int} (hs : significand < pow2 53)
    (hlow : -1074 ≤ exponent) (hhigh : exponent ≤ 971) :
    (shortest significand exponent).1 < pow10 2000 ∧
      -2000 ≤ (shortest significand exponent).2 ∧ (shortest significand exponent).2 ≤ 2000 := by
  obtain ⟨hvalue, hden⟩ := rounding_bounds hs hlow hhigh
  have htop := floorLog10_bounds (Nat.lt_of_le_of_lt (log2_le hvalue) (by decide))
    (Nat.lt_of_le_of_lt (log2_le hden) (by decide))
  have hsearch := search_bounds (rounding significand exponent) (floorLog10
    (rounding significand exponent).value (rounding significand exponent).den) 18 0
  unfold shortest
  dsimp only
  refine ⟨Nat.lt_of_le_of_lt hsearch.1 ?_, by omega, by omega⟩
  have hplaces : (18 + 0 - floorLog10 (rounding significand exponent).value
      (rounding significand exponent).den).toNat ≤ 418 := by omega
  have hdigits := Nat.mul_le_mul (Nat.le_trans hvalue (pow2_le_pow10 1024)) (pow10_le hplaces)
  rw [← pow10_add] at hdigits
  exact Nat.lt_of_le_of_lt (Nat.lt_of_le_of_lt hdigits (pow10_lt (Nat.lt_succ_self _)))
    (pow10_lt (by decide))

theorem length_toDigits_le {n k : Nat} (hk : 0 < k) (h : n < pow10 k) :
    (Nat.toDigits 10 n).length ≤ k :=
  (Nat.length_toDigits_le_iff (by decide) hk).2 h

theorem exponentText_length {e : Int} (hlow : -9999 ≤ e) (hhigh : e ≤ 9999) :
    (exponentText e).length ≤ 5 := by
  have hdigits := length_toDigits_le (n := e.natAbs) (k := 4) (by decide)
    (Nat.lt_of_le_of_lt (by omega : e.natAbs ≤ 9999) (by decide))
  unfold exponentText zeros
  simp
  omega

theorem positional_length (digits : List Char) (before : Int) (hlow : -3 ≤ before)
    (hhigh : before ≤ 16) : (positional digits before).length ≤ digits.length + 18 := by
  unfold positional zeros
  split
  · simp
    omega
  · split
    · simp
      omega
    · simp
      omega

theorem scientific_length (digits : List Char) (e : Int) (hlow : -9999 ≤ e) (hhigh : e ≤ 9999) :
    (scientific digits e).length ≤ digits.length + 7 := by
  have hexp := exponentText_length hlow hhigh
  unfold scientific
  split
  · simp
  · simp
    omega
  · simp
    omega

theorem signed_length (negative : Bool) (cs : List Char) :
    (signed negative cs).length ≤ cs.length + 1 := by
  cases negative <;> simp [signed]

theorem dropZeros_length (digits : List Char) : (dropZeros digits).length ≤ digits.length := by
  rw [dropZeros, List.length_reverse, ← @List.length_reverse _ digits]
  exact (List.dropWhile_sublist _).length_le

theorem shortestText_length (x : Float) : (shortestText x).length ≤ 2100 := by
  unfold shortestText
  split
  · decide
  · exact Nat.le_trans (signed_length _ _) (by decide)
  · exact Nat.le_trans (signed_length _ _) (by decide)
  · rename_i negative significand exponent _ hx
    obtain ⟨hs, hlow, hhigh⟩ := ofFloat_bounds hx
    obtain ⟨hd, hplaces⟩ := shortest_bounds hs hlow hhigh
    have hall := length_toDigits_le (by decide) hd
    have hdrop := dropZeros_length (Nat.toDigits 10 (shortest significand exponent).1)
    dsimp only at *
    refine Nat.le_trans (signed_length _ _) ?_
    split
    · have := positional_length (dropZeros (Nat.toDigits 10 (shortest significand exponent).1))
        ((Nat.toDigits 10 (shortest significand exponent).1).length
          + (shortest significand exponent).2 - 1 + 1) (by omega) (by omega)
      omega
    · have := scientific_length (dropZeros (Nat.toDigits 10 (shortest significand exponent).1))
        ((Nat.toDigits 10 (shortest significand exponent).1).length
          + (shortest significand exponent).2 - 1) (by omega) (by omega)
      omega

end Decimal

theorem Value.floatText_length (x : Float) : (Value.floatText x).length ≤ maxLength := by
  unfold Value.floatText
  split
  · decide
  · split <;> decide
  · rw [String.length_ofList]
    exact Nat.le_trans (Decimal.shortestText_length x) (by decide)

end PatternLint
