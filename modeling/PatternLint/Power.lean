/-! Powers of two and of ten, which bits and decimal digits are counted in. -/

namespace PatternLint

def pow2 (k : Nat) : Nat :=
  Nat.pow 2 k

def pow10 (k : Nat) : Nat :=
  Nat.pow 10 k

theorem pow2_pos (k : Nat) : 0 < pow2 k :=
  Nat.two_pow_pos k

theorem pow10_pos (k : Nat) : 0 < pow10 k :=
  Nat.pow_pos (by decide)

theorem pow2_succ (k : Nat) : pow2 (k + 1) = pow2 k * 2 := rfl

theorem pow2_le {j k : Nat} (h : j ≤ k) : pow2 j ≤ pow2 k :=
  Nat.pow_le_pow_right (by decide) h

theorem pow10_le {j k : Nat} (h : j ≤ k) : pow10 j ≤ pow10 k :=
  Nat.pow_le_pow_right (by decide) h

theorem pow10_lt {j k : Nat} (h : j < k) : pow10 j < pow10 k :=
  Nat.pow_lt_pow_right (by decide) h

theorem pow2_le_pow10 (k : Nat) : pow2 k ≤ pow10 k :=
  Nat.pow_le_pow_left (by decide) k

theorem pow2_add (j k : Nat) : pow2 (j + k) = pow2 j * pow2 k :=
  Nat.pow_add 2 j k

theorem pow10_add (j k : Nat) : pow10 (j + k) = pow10 j * pow10 k :=
  Nat.pow_add 10 j k

end PatternLint
