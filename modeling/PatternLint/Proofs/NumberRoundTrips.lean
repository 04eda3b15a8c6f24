import Mathlib.Data.List.TakeWhile
import Mathlib.Data.Nat.Digits.Lemmas
import Mathlib.Data.Nat.Size
import PatternLint.Primitive.Format
import PatternLint.Proofs.Numerals

/-! Integers that become texts and integers again. Formatting writes numerals, and whatever numeral
is read gives its integer back, up to the widths that the two directions allow. -/

namespace PatternLint

namespace Text.Numeral

variable {base : Nat} {n : Int} {cs : List Char} {c : Char}

/-- A fact about ASCII characters holds of digits if it holds of each of these characters. -/
theorem forall_isDigitOf {P : Char → Prop} (h : ∀ code : Fin 128, P (Char.ofNat code))
    (hc : isDigitOf base c) : P c := by
  have hlt : c.toNat < 128 := toNat_lt_of_isDigitOf hc
  simpa using h ⟨c.toNat, hlt⟩

theorem asciiDigitValue?_toUpper (hc : isDigitOf base c) :
    asciiDigitValue? c.toUpper = asciiDigitValue? c :=
  forall_isDigitOf (P := fun c => asciiDigitValue? c.toUpper = asciiDigitValue? c) (by decide) hc

theorem asciiDigitValue?_foldCase (hc : isDigitOf base c) :
    asciiDigitValue? (foldCase c) = asciiDigitValue? c :=
  forall_isDigitOf (P := fun c => asciiDigitValue? (foldCase c) = asciiDigitValue? c) (by decide) hc

/-- Letters in the other case are the same digits. -/
theorem Spells.upper (h : Spells base n cs) : Spells base n (Primitive.upperDigits cs) := by
  obtain ⟨ds, hlength, hdigits, hvalue, rfl⟩ := h
  refine ⟨ds.map Char.toUpper, by rw [List.length_map, hlength], ?_, ?_, ?_⟩
  · intro c hc
    obtain ⟨d, hd, rfl⟩ := List.mem_map.mp hc
    rw [isDigitOf, asciiDigitValue?_toUpper (hdigits d hd)]
    exact hdigits d hd
  · rw [List.map_map, ← hvalue]
    refine congrArg (ofDigits base) (List.map_congr_left fun d hd => ?_)
    exact congrArg (Option.getD · 0) (asciiDigitValue?_toUpper (hdigits d hd))
  · unfold Primitive.upperDigits
    split
    · rw [List.map_cons]
      rfl
    · rfl

end Text.Numeral

namespace Primitive

open Text Text.Numeral

variable {base : Nat} {n : Int} {cs : List Char} {c : Char}

section Reading

theorem signLength_of_digits (h : ∀ c ∈ cs, isDigitOf base c) : signLength cs = 0 := by
  unfold signLength
  split
  · exact (ne_of_isDigitOf (h '-' List.mem_cons_self) rfl rfl).elim
  · exact (ne_of_isDigitOf (h '+' List.mem_cons_self) rfl rfl).elim
  · rfl

/-- Behind its sign, a numeral has digits only, and has some. -/
theorem digits_of_spells (h : Spells base n cs) :
    cs.drop (signLength cs) ≠ [] ∧ ∀ c ∈ cs.drop (signLength cs), isDigitOf base c := by
  obtain ⟨ds, hlength, hdigits, -, hcs⟩ := h
  have hne : ds ≠ [] := by
    rw [← List.length_pos_iff, hlength]
    exact List.length_pos_iff.mpr Nat.toDigits_ne_nil
  have hbody : cs.drop (signLength cs) = ds := by
    rw [hcs]
    split
    · rfl
    · rw [signLength_of_digits hdigits]
      rfl
  rw [hbody]
  exact ⟨hne, hdigits⟩

theorem leadingInt_spells {isDigit : Char → Bool} (hdigit : ∀ c, isDigitOf base c → isDigit c)
    (h : Spells base n cs) (hb : 1 < base) (hb' : base ≤ 36)
    (hlen : isPowerOfTwo base ∨ (Nat.toDigits base n.natAbs).length ≤ maxDigits) :
    leadingInt isDigit base cs = Value.ofInt n := by
  obtain ⟨hne, hdigits⟩ := digits_of_spells h
  have htake : (cs.drop (signLength cs)).takeWhile isDigit = cs.drop (signLength cs) :=
    List.takeWhile_eq_self_iff.mpr fun c hc => hdigit c (hdigits c hc)
  have hwhole : signLength cs + (cs.drop (signLength cs)).length = cs.length := by
    have hpos := List.length_pos_iff.mpr hne
    rw [List.length_drop] at hpos ⊢
    omega
  unfold leadingInt
  simp only [htake, List.isEmpty_eq_false_iff.mpr hne, hwhole, List.take_length,
    h.read_eq hb hb' hlen, Except.mapError, Bool.false_eq_true, if_false]
  exact pure_bind n Value.ofInt

theorem leadingFloat?_spells (h : Spells 10 n cs) : leadingFloat? cs = none := by
  have htake : (cs.drop (signLength cs)).takeWhile isDecimal = cs.drop (signLength cs) :=
    List.takeWhile_eq_self_iff.mpr (digits_of_spells h).2
  unfold leadingFloat?
  generalize cs.drop (signLength cs) = body at htake
  simp [htake, exponentLength]

theorem spells_dropBlanks (h : Spells base n cs) :
    (cs.dropWhile fun c => c == ' ' || c == '\t') = cs := by
  obtain ⟨ds, hlength, hdigits, -, rfl⟩ := h
  split
  · rfl
  · cases ds with
    | nil => rfl
    | cons d ds =>
      have hd := hdigits d List.mem_cons_self
      have hblank : ¬ (d == ' ' || d == '\t') = true := by
        simp [ne_of_isDigitOf hd (rfl : asciiDigitValue? ' ' = none),
          ne_of_isDigitOf hd (rfl : asciiDigitValue? '\t' = none)]
      exact List.dropWhile_cons_of_neg hblank

theorem parseNumber_spells {b : Value} {radix : Int} (h : Spells base n cs)
    (hradix : b.asIntOr 10 = .ok radix) :
    parseNumber (.ofChars cs) b =
      if radix = 10 then
        match leadingFloat? cs with
        | some x => .ok (.float x)
        | none => leadingInt isDecimal 10 cs
      else if digitCount radix = 0 then .error .emptyDigitClass
      else leadingInt (fun c => (foldedDigit? c).any (· < digitCount radix))
          (numeralBase radix) cs := by
  rw [parseNumber, Value.asChars_ofChars, hradix]
  change (if radix = 10 then _ else _) = _
  simp only [spells_dropBlanks h]
  rfl

/-- In base ten, a numeral is not taken for a float. -/
theorem parseNumber_decimal (h : Spells 10 n cs)
    (hlen : (Nat.toDigits 10 n.natAbs).length ≤ maxDigits) :
    parseNumber (.ofChars cs) .nil = Value.ofInt n := by
  rw [parseNumber_spells h rfl, if_pos rfl, leadingFloat?_spells h]
  exact leadingInt_spells (fun _ hc => hc) h (by decide) (by decide) (.inr hlen)

theorem parseNumber_inBase (h : Spells base n cs) (hb : 1 < base) (hb' : base ≤ 36)
    (hten : base ≠ 10)
    (htwo : isPowerOfTwo base) : parseNumber (.ofChars cs) (.int base) = Value.ofInt n := by
  have hcount : digitCount base = base := by
    rw [digitCount, if_neg (by omega)]
    omega
  have hbase : numeralBase base = base := by
    rw [numeralBase, if_neg (by omega)]
    omega
  have hdigit : ∀ c, isDigitOf base c → (foldedDigit? c).any (· < base) := fun c hc => by
    rw [foldedDigit?, asciiDigitValue?_foldCase hc]
    exact hc
  rw [parseNumber_spells h rfl, if_neg (by omega), hcount, if_neg (by omega), hbase]
  exact leadingInt_spells hdigit h hb hb' (.inl htwo)

end Reading

section Writing

/-- A conversion without position, flags, width and precision. -/
def bareSpec (conversion : Char) : Spec :=
  ⟨none, [], [], none, conversion⟩

/-- The conversions that write the digits of an integer. -/
def digitConversions : List Char :=
  ['d', 'o', 'x', 'X']

theorem directive_bare (h : c ∈ digitConversions) (next : Int) :
    directive next [c] = .ok (.argument next (bareSpec c), next + 1, []) := by
  simp only [digitConversions, List.mem_cons, List.not_mem_nil, or_false] at h
  rcases h with rfl | rfl | rfl | rfl <;> rfl

theorem pad_narrow (text : List Char) (numeric : Bool) : pad text [] 0 numeric = text := by
  simp [pad]

theorem intText_bare (c : Char) (n : Int) : intText c [] n = intBody c n := by
  simp [intText]

theorem convert_bare (h : c ∈ digitConversions) (n : Int) :
    convert (bareSpec c) (.int n) = intBody c n := by
  simp only [digitConversions, List.mem_cons, List.not_mem_nil, or_false] at h
  rcases h with rfl | rfl | rfl | rfl <;>
    (simp [convert, bareSpec, maxLength, Value.asNumber, Number.truncate, pad_narrow,
      intText_bare]; rfl)

theorem formatFrom_bare (h : c ∈ digitConversions) (n : Int) :
    formatFrom [.int n] [] 0 ['%', c] = intBody c n := by
  have harg : argument [.int n] 0 = .ok (.int n) := rfl
  have hd := directive_bare h 0
  rw [formatFrom]
  generalize directive 0 [c] = d at hd
  subst hd
  simp only [harg, convert_bare h]
  cases intBody c n with
  | error f => rfl
  | ok text => simp [formatFrom]

/-- A format of one conversion to digits writes them, unless the text is too long. -/
theorem format_bare (h : c ∈ digitConversions) {text : List Char} (htext : intBody c n = .ok text)
    (hlen : text.length ≤ maxLength) : format [.ofChars ['%', c], .int n] =
      .ok (.ofChars text) := by
  have hformat : format [.ofChars ['%', c], .int n] = (do
      let text ← formatFrom [.int n] [] 0 ['%', c]
      if text.length > maxLength then .error (.signal .stringTooLong)
        else return .ofChars text) := by
    rw [format, leading, Value.asChars_ofChars]
    rfl
  rw [hformat, formatFrom_bare h, htext]
  exact if_neg (Nat.not_lt.mpr hlen)

theorem length_toDigits_lt (hb : 1 < base) (h : n.natAbs.size ≤ integerWidth) :
    (Nat.toDigits base n.natAbs).length < maxLength := by
  have hfits {m j k : Nat} (hm : m.size ≤ j) (hk : 0 < k) (hjk : j ≤ k) :
      (Nat.toDigits base m).length ≤ k :=
    (Nat.length_toDigits_le_iff hb hk).mpr <|
      calc m < 2 ^ j := Nat.size_le.mp hm
        _ ≤ base ^ j := Nat.pow_le_pow_left hb j
        _ ≤ base ^ k := Nat.pow_le_pow_right (by omega) hjk
  have hle := hfits (k := maxLength - 1) h (by decide) (by decide)
  exact Nat.lt_of_le_sub_one (by decide) hle

theorem length_spells (h : Spells base n cs) :
    cs.length ≤ (Nat.toDigits base n.natAbs).length + 1 := by
  obtain ⟨ds, hlength, -, -, rfl⟩ := h
  rw [← hlength]
  split
  · exact Nat.le_refl _
  · exact Nat.le_succ _

theorem lt_pow2 {m k : Nat} (h : m.size ≤ k) : m < pow2 k :=
  Nat.size_le.mp h

theorem ofInt_ok (h : n.natAbs.size ≤ integerWidth) : Value.ofInt n = .ok (.int n) :=
  if_neg (Nat.not_le.mpr (lt_pow2 h))

theorem length_toDigits_ten (h : (Nat.digits 10 n.natAbs).length ≤ maxDigits) :
    (Nat.toDigits 10 n.natAbs).length ≤ maxDigits :=
  (Nat.length_toDigits_le_iff (by decide) (by decide)).mpr
    ((Nat.digits_length_le_iff (by decide) _).mp h)

/-- The base of the digits that a conversion writes. -/
def conversionBase (conversion : Char) : Nat :=
  if conversion = 'd' then 10 else if conversion = 'o' then 8 else 16

theorem intBody_spells (h : c ∈ digitConversions)
    (hlen : c = 'd' → (Nat.toDigits 10 n.natAbs).length ≤ maxDigits) :
    ∃ text, intBody c n = .ok text ∧ Spells (conversionBase c) n text := by
  simp only [digitConversions, List.mem_cons, List.not_mem_nil, or_false] at h
  rcases h with rfl | rfl | rfl | rfl
  · refine ⟨writeIn 10 n, ?_, spells_writeIn (by decide) (by decide) n⟩
    rw [intBody, write_eq (hlen rfl)]
    exact congrArg Except.ok String.toList_ofList
  · exact ⟨writeIn 8 n, rfl, spells_writeIn (by decide) (by decide) n⟩
  · exact ⟨writeIn 16 n, rfl, spells_writeIn (by decide) (by decide) n⟩
  · exact ⟨upperDigits (writeIn 16 n), rfl, (spells_writeIn (by decide) (by decide) n).upper⟩

/-- What a conversion to digits writes is a numeral of the integer. -/
theorem format_spells (h : c ∈ digitConversions) (hwidth : n.natAbs.size ≤ integerWidth)
    (hlen : c = 'd' → (Nat.toDigits 10 n.natAbs).length ≤ maxDigits) :
    ∃ text, format [.ofChars ['%', c], .int n] = .ok (.ofChars text) ∧
      Spells (conversionBase c) n text := by
  obtain ⟨text, hbody, hspells⟩ := intBody_spells h hlen
  have hb : 1 < conversionBase c := by
    unfold conversionBase
    split <;> [decide; split <;> decide]
  exact ⟨text, format_bare h hbody ((length_spells hspells).trans (length_toDigits_lt hb hwidth)),
    hspells⟩

end Writing

/-- Integers survive formatting and parsing: in the bases that are powers of two up to the width
that integers have, and in base ten up to the number of digits that are converted. -/
theorem numbers_readBack (n : Int) (hwidth : n.natAbs.size ≤ integerWidth) :
    (∃ text, format [.str "%x", .int n] = .ok text ∧
      unaryOr parseNumber [text, .int 16] = .ok (.int n)) ∧
    (∃ text, format [.str "%X", .int n] = .ok text ∧
      unaryOr parseNumber [text, .int 16] = .ok (.int n)) ∧
    (∃ text, format [.str "%o", .int n] = .ok text ∧
      unaryOr parseNumber [text, .int 8] = .ok (.int n)) ∧
    ((Nat.digits 10 n.natAbs).length ≤ maxDigits →
      (∃ text, unary numberText [.int n] = .ok text ∧ unaryOr parseNumber [text] = .ok (.int n)) ∧
      ∃ text, format [.str "%d", .int n] = .ok text ∧
        unaryOr parseNumber [text] = .ok (.int n)) := by
  have hint := ofInt_ok hwidth
  refine ⟨?lower, ?upper, ?octal, fun hdigits => ?decimal⟩
  case lower =>
    obtain ⟨text, hformat, hspells⟩ := format_spells (c := 'x') (by decide) hwidth nofun
    exact ⟨_, hformat,
      (parseNumber_inBase hspells (by decide) (by decide) (by decide) rfl).trans hint⟩
  case upper =>
    obtain ⟨text, hformat, hspells⟩ := format_spells (c := 'X') (by decide) hwidth nofun
    exact ⟨_, hformat,
      (parseNumber_inBase hspells (by decide) (by decide) (by decide) rfl).trans hint⟩
  case octal =>
    obtain ⟨text, hformat, hspells⟩ := format_spells (c := 'o') (by decide) hwidth nofun
    exact ⟨_, hformat,
      (parseNumber_inBase hspells (by decide) (by decide) (by decide) rfl).trans hint⟩
  case decimal =>
    have hlen := length_toDigits_ten hdigits
    refine ⟨⟨.ofChars (writeIn 10 n), ?_, ?_⟩, ?_⟩
    · change (do return Value.str (← (Text.Numeral.write n).mapError Fault.numeral)) = _
      rw [write_eq hlen]
      rfl
    · exact (parseNumber_decimal (spells_writeIn (by decide) (by decide) n) hlen).trans hint
    · obtain ⟨text, hformat, hspells⟩ := format_spells (c := 'd') (by decide) hwidth fun _ => hlen
      exact ⟨_, hformat, (parseNumber_decimal hspells hlen).trans hint⟩

/-- A negative integer with letters among its digits. -/
theorem beef_readBack :
    format [.str "%x", .int (-48879)] = .ok (.str "-beef") ∧
    unaryOr parseNumber [.str "-beef", .int 16] = .ok (.int (-48879)) ∧
    format [.str "%X", .int (-48879)] = .ok (.str "-BEEF") ∧
    unaryOr parseNumber [.str "-BEEF", .int 16] = .ok (.int (-48879)) ∧
    format [.str "%d", .int (-48879)] = .ok (.str "-48879") ∧
    unaryOr parseNumber [.str "-48879"] = .ok (.int (-48879)) := by
  have hwidth : (-48879 : Int).natAbs.size ≤ integerWidth :=
    (Nat.size_le.mpr (by decide : 48879 < 2 ^ 16)).trans (by decide)
  have hdigits : (Nat.digits 10 (-48879 : Int).natAbs).length ≤ maxDigits :=
    ((Nat.digits_length_le_iff (by decide) _).mpr (by decide : 48879 < 10 ^ 5)).trans (by decide)
  obtain ⟨⟨lower, hlower, hlower'⟩, ⟨upper, hupper, hupper'⟩, -, hdecimal⟩ :=
    numbers_readBack (-48879) hwidth
  obtain ⟨-, decimal, hdecimal, hdecimal'⟩ := hdecimal hdigits
  have hx : format [.str "%x", .int (-48879)] = .ok (.str "-beef") :=
    (format_bare (by decide) rfl (by decide)).trans rfl
  have hX : format [.str "%X", .int (-48879)] = .ok (.str "-BEEF") :=
    (format_bare (by decide) rfl (by decide)).trans rfl
  have hd : format [.str "%d", .int (-48879)] = .ok (.str "-48879") :=
    (format_bare (by decide) rfl (by decide)).trans rfl
  cases hx.symm.trans hlower
  cases hX.symm.trans hupper
  cases hd.symm.trans hdecimal
  exact ⟨hx, hlower', hX, hupper', hd, hdecimal'⟩

end Primitive

end PatternLint
