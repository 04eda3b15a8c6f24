import PatternLint.Text.Numeral

/-! Reading an integer undoes writing it. -/

namespace PatternLint.Text

variable {base n d : Nat} {c x : Char} {cs : List Char}

theorem asciiDigitValue?_digitChar (h : d < 16) : asciiDigitValue? d.digitChar = some d := by
  have : ∀ m : Fin 16, asciiDigitValue? m.val.digitChar = some m.val := by decide
  exact this ⟨d, h⟩

theorem isDigitOf_digitChar (hd : d < base) (hb : base ≤ 16) : isDigitOf base d.digitChar := by
  simp [isDigitOf, asciiDigitValue?_digitChar (Nat.lt_of_lt_of_le hd hb), hd]

theorem ne_of_isDigitOf (h : isDigitOf base c) (hx : asciiDigitValue? x = none) : c ≠ x := by
  rintro rfl
  simp [isDigitOf, hx] at h

theorem isAsciiSpace_of_isDigitOf (h : isDigitOf base c) : isAsciiSpace c = false := by
  have hne : ∀ x ∈ [' ', '\t', '\n', '\r', '\x0c', '\x0b'], c ≠ x := by
    simp only [List.forall_mem_cons]
    refine ⟨?_, ?_, ?_, ?_, ?_, ?_, nofun⟩ <;> exact ne_of_isDigitOf h rfl
  simpa [isAsciiSpace] using hne

theorem toNat_lt_of_isDigitOf (h : isDigitOf base c) : c.toNat < 128 := by
  rcases Nat.lt_or_ge c.toNat 128 with hc | hc
  · exact hc
  · have above : ∀ x : Char, x.toNat < 128 → ¬c ≤ x := fun x hx hle => by
      have : c.toNat ≤ x.toNat := hle
      omega
    have hnone : asciiDigitValue? c = none := by
      simp [asciiDigitValue?, above '9' (by decide), above 'z' (by decide), above 'Z' (by decide)]
    exact (ne_of_isDigitOf h hnone rfl).elim

theorem isDigitOf_of_mem_toDigits (hb : 1 < base) (hb' : base ≤ 16) (n : Nat) :
    ∀ c ∈ Nat.toDigits base n, isDigitOf base c := by
  induction n using Nat.strongRecOn with
  | ind n ih =>
    rw [Nat.toDigits_eq_if hb]
    split
    · rename_i hn
      simpa using isDigitOf_digitChar hn hb'
    · rename_i hn
      intro c hc
      rcases List.mem_append.1 hc with hc | hc
      · exact ih (n / base) (Nat.div_lt_self (by omega) hb) c hc
      · rw [List.mem_singleton.1 hc]
        exact isDigitOf_digitChar (Nat.mod_lt n (by omega)) hb'

namespace Numeral

def digitValue (c : Char) : Nat :=
  (asciiDigitValue? c).getD 0

theorem digitRun?_of_digits (hne : cs ≠ []) (h : ∀ c ∈ cs, isDigitOf base c) :
    digitRun? base cs = some (cs.map digitValue) := by
  induction cs with
  | nil => contradiction
  | cons c rest ih =>
    obtain ⟨hc, hrest⟩ := List.forall_mem_cons.1 h
    obtain ⟨d, hd⟩ : ∃ d, asciiDigitValue? c = some d :=
      Option.ne_none_iff_exists'.1 fun hnone => ne_of_isDigitOf hc hnone rfl
    cases rest with
    | nil => simp [digitRun?, hc, hd, digitValue]
    | cons c' rest =>
      have hunder : c' ≠ '_' := ne_of_isDigitOf (hrest c' (by simp)) rfl
      rw [digitRun?.eq_4 base c (c' :: rest) nofun (by simp [hunder]), ih nofun hrest]
      simp [hc, hd, digitValue]

theorem ofDigits_toDigits (hb : 1 < base) (hb' : base ≤ 16) (n : Nat) :
    ofDigits base ((Nat.toDigits base n).map digitValue) = n := by
  induction n using Nat.strongRecOn with
  | ind n ih =>
    rw [Nat.toDigits_eq_if hb]
    split
    · rename_i hn
      simp [ofDigits, digitValue, asciiDigitValue?_digitChar (Nat.lt_of_lt_of_le hn hb')]
    · rename_i hn
      have hmod := Nat.mod_lt n (Nat.zero_lt_of_lt hb)
      have := ih (n / base) (Nat.div_lt_self (by omega) hb)
      simp only [ofDigits] at this
      simp only [ofDigits, List.map_append, List.foldl_append, this, List.map_cons, List.map_nil,
        List.foldl_cons, List.foldl_nil, digitValue,
        asciiDigitValue?_digitChar (Nat.lt_of_lt_of_le hmod hb'), Option.getD_some]
      rw [Nat.mul_comm]
      exact Nat.div_add_mod n base

/-- The letter of the mark of a base is no digit of that base. -/
theorem markedBase?_ne (hb : 1 < base) (h : ∀ c ∈ cs, isDigitOf base c) :
    markedBase? cs ≠ some base := by
  unfold markedBase?
  split
  · rename_i c _
    have hc := h c (by simp)
    intro heq
    split at heq
    · cases heq
      rename_i hx
      simp only [Bool.or_eq_true, beq_iff_eq] at hx
      rcases hx with rfl | rfl <;> revert hc <;> decide
    split at heq
    · cases heq
      rename_i hx
      simp only [Bool.or_eq_true, beq_iff_eq] at hx
      rcases hx with rfl | rfl <;> revert hc <;> decide
    split at heq
    · cases heq
      rename_i hx
      simp only [Bool.or_eq_true, beq_iff_eq] at hx
      rcases hx with rfl | rfl <;> revert hc <;> decide
    · cases heq
  · exact nofun

theorem magnitude?_of_digits (hb : 1 < base) (hne : cs ≠ []) (h : ∀ c ∈ cs, isDigitOf base c)
    (hlen : isPowerOfTwo base ∨ cs.length ≤ maxDigits) :
    magnitude? base cs = some (.ok (ofDigits base (cs.map digitValue))) := by
  have hzero : base ≠ 0 := by omega
  have hshort : isPowerOfTwo base = false → cs.length ≤ maxDigits :=
    fun h => hlen.resolve_left (by simp [h])
  simpa [magnitude?, hzero, dropMark, markedBase?_ne hb h, digitRun?_of_digits hne h] using hshort

theorem trim_eq_self (h : ∀ c ∈ cs, isAsciiSpace c = false) :
    ((cs.dropWhile isAsciiSpace).reverse.dropWhile isAsciiSpace).reverse = cs := by
  have keep : ∀ xs : List Char, (∀ c ∈ xs, isAsciiSpace c = false) →
      xs.dropWhile isAsciiSpace = xs := by
    intro xs hxs
    cases xs with
    | nil => rfl
    | cons x rest => simp [hxs x (by simp)]
  rw [keep cs h, keep cs.reverse (by simpa using h), List.reverse_reverse]

theorem plain_of_digits (h : ∀ c ∈ cs, isDigitOf base c) :
    ∀ c ∈ cs, c.toNat < 128 ∧ isAsciiSpace c = false :=
  fun c hc => ⟨toNat_lt_of_isDigitOf (h c hc), isAsciiSpace_of_isDigitOf (h c hc)⟩

/-- Whether a numeral is negative, and what is behind its sign. -/
def unsign : List Char → Bool × List Char
  | '-' :: rest => (true, rest)
  | '+' :: rest => (false, rest)
  | cs => (false, cs)

theorem unsign_of_digits (h : ∀ c ∈ cs, isDigitOf base c) : unsign cs = (false, cs) := by
  unfold unsign
  split
  · exact (ne_of_isDigitOf (h '-' (by simp)) rfl rfl).elim
  · exact (ne_of_isDigitOf (h '+' (by simp)) rfl rfl).elim
  · rfl

theorem read_of_plain (hbase : base ≠ 1 ∧ base ≤ 36)
    (h : ∀ c ∈ cs, c.toNat < 128 ∧ isAsciiSpace c = false) :
    read base cs = match magnitude? base (unsign cs).2 with
      | none => .error (.malformed (String.ofList cs) base)
      | some r => r.map fun n => if (unsign cs).1 then -(n : Int) else n := by
  have hbad : ¬(base = 1 ∨ base > 36) := by omega
  have hascii : cs.all (·.toNat < 128) = true :=
    List.all_eq_true.2 fun c hc => decide_eq_true (h c hc).1
  have htrim := trim_eq_self fun c hc => (h c hc).2
  fun_cases unsign cs with
  | case1 rest =>
    cases hm : magnitude? base rest <;> simp [read, hbad, hascii, htrim, hm]
  | case2 rest =>
    cases hm : magnitude? base rest <;> simp [read, hbad, hascii, htrim, hm]
  | case3 cs hminus hplus =>
    cases hm : magnitude? base cs <;> simp [read, hbad, hascii, htrim, hm]

/-- Digits are read, unless there are too many of them for a base that is no power of two. -/
theorem read_of_digits (hb : 1 < base) (hb' : base ≤ 36) (hne : cs ≠ [])
    (h : ∀ c ∈ cs, isDigitOf base c) (hlen : isPowerOfTwo base ∨ cs.length ≤ maxDigits) :
    read base cs = .ok (ofDigits base (cs.map digitValue)) := by
  rw [read_of_plain ⟨by omega, hb'⟩ (plain_of_digits h), unsign_of_digits h]
  simp only [magnitude?_of_digits hb hne h hlen]
  rfl

/-- A numeral of an integer: the digits of its magnitude, letters in either case, behind a minus
sign if it is negative. -/
def Spells (base : Nat) (n : Int) (cs : List Char) : Prop :=
  ∃ ds, ds.length = (Nat.toDigits base n.natAbs).length ∧ (∀ c ∈ ds, isDigitOf base c) ∧
    ofDigits base (ds.map digitValue) = n.natAbs ∧ cs = if n < 0 then '-' :: ds else ds

theorem spells_writeIn (hb : 1 < base) (hb' : base ≤ 16) (n : Int) :
    Spells base n (writeIn base n) :=
  ⟨Nat.toDigits base n.natAbs, rfl, isDigitOf_of_mem_toDigits hb hb' n.natAbs,
    ofDigits_toDigits hb hb' n.natAbs, rfl⟩

theorem Spells.read_eq {n : Int} (h : Spells base n cs) (hb : 1 < base) (hb' : base ≤ 36)
    (hlen : isPowerOfTwo base ∨ (Nat.toDigits base n.natAbs).length ≤ maxDigits) :
    read base cs = .ok n := by
  obtain ⟨ds, hlength, hdigits, hvalue, rfl⟩ := h
  have hne : ds ≠ [] := by
    rintro rfl
    exact Nat.toDigits_ne_nil (List.length_eq_zero_iff.1 hlength.symm)
  rw [← hlength] at hlen
  by_cases hn : n < 0
  · have hplain : ∀ c ∈ '-' :: ds, c.toNat < 128 ∧ isAsciiSpace c = false :=
      List.forall_mem_cons.2 ⟨by decide, plain_of_digits hdigits⟩
    rw [if_pos hn, read_of_plain ⟨by omega, hb'⟩ hplain]
    simp only [unsign, magnitude?_of_digits hb hne hdigits hlen, hvalue]
    exact congrArg Except.ok (show -(n.natAbs : Int) = n by omega)
  · rw [if_neg hn, read_of_digits hb hb' hne hdigits hlen, hvalue]
    exact congrArg Except.ok (show (n.natAbs : Int) = n by omega)

/-- An integer that is written is read. -/
theorem read_writeIn (hb : 1 < base) (hb' : base ≤ 16) (n : Int)
    (hlen : isPowerOfTwo base ∨ (Nat.toDigits base n.natAbs).length ≤ maxDigits) :
    read base (writeIn base n) = .ok n :=
  (spells_writeIn hb hb' n).read_eq hb (by omega) hlen

theorem write_eq {n : Int} (hlen : (Nat.toDigits 10 n.natAbs).length ≤ maxDigits) :
    write n = .ok (String.ofList (writeIn 10 n)) := by
  simp only [write, Nat.not_lt.2 hlen, if_false]
  rfl

end Numeral

end PatternLint.Text
