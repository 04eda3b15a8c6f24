import Mathlib.Data.List.TakeWhile
import PatternLint.Proofs.BracketReading
import PatternLint.Proofs.Numerals
import PatternLint.Proofs.RegexpTokens
import PatternLint.Proofs.SetArguments
import PatternLint.Rx.Write

/-! The marks of repetition, and what the linter makes of them behind something that can be
repeated. -/

namespace PatternLint.Rx

open Pattern.Regexp
open Pattern (regexpSpecials)

/-- The linter passes a repetition of the operand with issues that may be reported. -/
def Repeatable (may : Issue → Prop) (operand : Operand) : Prop :=
  operand = .item ∨
    (operand = .nothing ∧ (∀ c ∈ ['*', '+', '?'], may (.unescaped c)) ∧ may .repeatedNothing)

/-- What may be written behind an operand to repeat it. -/
inductive Mark : List Char → Prop
  | many {op : Char} (greedy : Bool) (hop : op ∈ ['*', '+', '?']) : Mark (manyMark op greedy)
  | bound {low : Nat} {high : Option Nat} {mark : List Char} (h : boundMark low high = .ok mark) :
      Mark mark

variable {may : Issue → Prop} {s : Spot} {after mark : List Char} {op : Char}

/-! ### Operators -/

theorem step_many (hop : op ∈ ['*', '+', '?']) (st : State) (before : List Char) (pos : Nat)
    (rest : List Char) : step st before pos op rest = .ok (postfixStep st pos op rest) := by
  have hne : op ≠ '\\' ∧ op ≠ '[' := by
    constructor <;> (rintro rfl; exact absurd hop (by decide))
  have hop' : (op == '*' || op == '+' || op == '?') = true := by simpa [or_assoc] using hop
  simp only [step, beq_iff_eq, hne.1, hne.2, if_false, hop', if_true]

theorem postfixStep_item {st : State} {rest : List Char} {pos : Nat} (h : st.operand = .item) :
    postfixStep st pos op rest
      = (st.setOperand .repetition, if rest.head? == some '?' then 1 else 0) := by
  simp [postfixStep, h]

theorem postfixStep_nothing {st : State} {rest : List Char} {pos : Nat}
    (h : st.operand = .nothing) :
    postfixStep st pos op rest = ((st.report pos (.unescaped op)).setOperand .item, 0) := by
  simp [postfixStep, h]

/-- An operator behind an item, with the question mark that makes it reluctant. -/
theorem goes_many_item (may : Issue → Prop) (greedy : Bool) (hop : op ∈ ['*', '+', '?'])
    (hs : s.state.operand = .item) (hafter : after.head? ≠ some '?') :
    ∃ t, Goes may s (manyMark op greedy) after
      [⟨manyMark op greedy, s.state.groups.length⟩] t := by
  cases greedy with
  | true =>
    have hstep : step s.state s.before s.pos op ([] ++ after)
        = .ok (s.state.setOperand .repetition, ([] : List Char).length) := by
      simp [step_many hop, postfixStep_item hs, hafter]
    exact ⟨_, .token hstep rfl (.of_eq rfl)⟩
  | false =>
    have hstep : step s.state s.before s.pos op (['?'] ++ after)
        = .ok (s.state.setOperand .repetition, ['?'].length) := by
      simp [step_many hop, postfixStep_item hs]
    exact ⟨_, .token hstep rfl (.of_eq rfl)⟩

/-- An operator behind nothing is taken for a character, and the question mark is an operator. -/
theorem goes_many_nothing (greedy : Bool) (hop : op ∈ ['*', '+', '?'])
    (hs : s.state.operand = .nothing) (hmay : may (.unescaped op))
    (hafter : after.head? ≠ some '?') :
    ∃ ts t, Goes may s (manyMark op greedy) after ts t ∧ ∀ k ∈ ts, k.text ≠ ['\\', '|'] := by
  have hfirst : ∀ rest, Goes may s [op] rest [⟨[op], s.state.groups.length⟩]
      (s.past [op] ((s.state.report s.pos (.unescaped op)).setOperand .item)) := fun rest => by
    have hstep : step s.state s.before s.pos op ([] ++ rest) = .ok
        ((s.state.report s.pos (.unescaped op)).setOperand .item, ([] : List Char).length) := by
      simp [step_many hop, postfixStep_nothing hs]
    exact .token hstep rfl (.one hmay rfl)
  cases greedy with
  | true => exact ⟨_, _, hfirst after, by simp⟩
  | false =>
    obtain ⟨t, hmark⟩ := goes_many_item may true (by decide : '?' ∈ ['*', '+', '?'])
      (s := s.past [op] ((s.state.report s.pos (.unescaped op)).setOperand .item)) rfl hafter
    exact ⟨_, t, (hfirst _).append hmark, by simp [manyMark]⟩

/-! ### Intervals -/

theorem isDigit_of_isDigitOf {c : Char} (h : Text.isDigitOf 10 c) : Text.isDigit c = true := by
  have hall : ∀ n < 128, Text.isDigitOf 10 (Char.ofNat n) → Text.isDigit (Char.ofNat n) = true := by
    decide +kernel
  have := hall c.toNat (Text.toNat_lt_of_isDigitOf h)
  rw [Char.ofNat_toNat] at this
  exact this h

/-- The digits of a count. -/
structure Counts (n : Nat) (text : List Char) : Prop where
  ne_nil : text ≠ []
  digits : ∀ c ∈ text, Text.isDigit c = true
  value : Pattern.Regexp.bound text = .ok n

theorem countText_counts {n : Nat} {text : List Char} (h : countText n = .ok text) :
    Counts n text := by
  unfold countText Text.Numeral.write at h
  dsimp only at h
  split at h
  · rename_i hwrite
    split at hwrite
    · cases hwrite
    · rename_i hlen
      cases hwrite
      cases h
      rw [if_neg (by omega), String.toList_ofList]
      have hdigits := Text.isDigitOf_of_mem_toDigits (by decide : 1 < 10) (by decide)
        (n : Int).natAbs
      refine ⟨Nat.toDigits_ne_nil, fun c hc => isDigit_of_isDigitOf (hdigits c hc), ?_⟩
      have hread := Text.Numeral.read_writeIn (by decide : 1 < 10) (by decide) n (.inr (by omega))
      rw [Text.Numeral.writeIn, if_neg (by omega)] at hread
      rw [Pattern.Regexp.bound, hread]
      rfl
  · cases h

theorem Counts.comma_not_mem {n : Nat} {text : List Char} (h : Counts n text) : ',' ∉ text :=
  fun hc => absurd (h.digits _ hc) (by decide +kernel)

theorem Counts.isBound {n : Nat} {text : List Char} (h : Counts n text) : isBound text = true :=
  List.all_eq_true.mpr h.digits

theorem Counts.backslash_not_mem {n : Nat} {text : List Char} (h : Counts n text) : '\\' ∉ text :=
  fun hc => absurd (h.digits _ hc) (by decide +kernel)

theorem splitBounds_comma {low high : List Char} (h : ',' ∉ low) :
    splitBounds (low ++ ',' :: high) = (low, high) := by
  have hlow : ∀ c ∈ low, (c != ',') = true := fun c hc => bne_iff_ne.mpr fun heq => h (heq ▸ hc)
  simp [splitBounds, List.takeWhile_append_of_pos hlow, List.dropWhile_append_of_pos hlow]

theorem splitBounds_single {low : List Char} (h : ',' ∉ low) : splitBounds low = (low, []) := by
  have hlow : ∀ c ∈ low, (c != ',') = true := fun c hc => bne_iff_ne.mpr fun heq => h (heq ▸ hc)
  simp only [splitBounds, List.takeWhile_eq_self_iff.mpr hlow, List.dropWhile_eq_nil_iff.mpr hlow,
    List.drop_nil]

/-- What may stand between the braces of an interval. -/
structure Bounds (body : List Char) : Prop where
  plain : '\\' ∉ body
  low : isBound (splitBounds body).1 = true
  high : isBound (splitBounds body).2 = true
  ordered : (splitBounds body).2 = [] ∨
    ∃ a b, Pattern.Regexp.bound (splitBounds body).1 = .ok a ∧
      Pattern.Regexp.bound (splitBounds body).2 = .ok b ∧ a ≤ b

theorem bounds_open {n : Nat} {text : List Char} (h : Counts n text) : Bounds (text ++ [',']) := by
  refine ⟨by simp [h.backslash_not_mem], ?_, ?_, ?_⟩ <;> rw [splitBounds_comma h.comma_not_mem]
  · exact h.isBound
  · rfl
  · exact .inl rfl

theorem bounds_exact {n : Nat} {text : List Char} (h : Counts n text) : Bounds text := by
  refine ⟨h.backslash_not_mem, ?_, ?_, ?_⟩ <;> rw [splitBounds_single h.comma_not_mem]
  · exact h.isBound
  · rfl
  · exact .inl rfl

theorem bounds_between {n m : Nat} {low high : List Char} (hlow : Counts n low)
    (hhigh : Counts m high) (hle : n ≤ m) : Bounds (low ++ ',' :: high) := by
  refine ⟨by simp [hlow.backslash_not_mem, hhigh.backslash_not_mem], ?_, ?_, ?_⟩ <;>
    rw [splitBounds_comma hlow.comma_not_mem]
  · exact hlow.isBound
  · exact hhigh.isBound
  · exact .inr ⟨n, m, hlow.value, hhigh.value, Int.ofNat_le.mpr hle⟩

/-- The braces of an interval with what stands between them. -/
def braced (body : List Char) : List Char :=
  '\\' :: '\x7b' :: body ++ ['\\', '\x7d']

theorem boundMark_bounds {low : Nat} {high : Option Nat} (h : boundMark low high = .ok mark) :
    ∃ body, mark = braced body ∧ Bounds body := by
  unfold boundMark at h
  cases high with
  | none =>
    obtain ⟨text, htext, h⟩ := except_bind_eq_ok.mp h
    cases h
    exact ⟨_, rfl, bounds_open (countText_counts htext)⟩
  | some high =>
    dsimp only at h
    split at h
    · obtain ⟨text, htext, h⟩ := except_bind_eq_ok.mp h
      cases h
      exact ⟨_, rfl, bounds_exact (countText_counts htext)⟩
    split at h
    · cases h
    · obtain ⟨text, htext, h⟩ := except_bind_eq_ok.mp h
      obtain ⟨text', htext', h⟩ := except_bind_eq_ok.mp h
      cases h
      exact ⟨_, rfl, bounds_between (countText_counts htext) (countText_counts htext') (by omega)⟩

/-- The issue of an interval behind some operand. -/
def intervalReport (st : State) (pos : Nat) : State :=
  match st.operand with
  | .nothing => st.report pos .repeatedNothing
  | .item => st
  | .repetition => st.report pos .repeatedRepetition

theorem intervalStep_eq {body : List Char} (h : Bounds body) (st : State) (pos : Nat)
    (after : List Char) : intervalStep st pos (body ++ '\\' :: '\x7d' :: after)
      = .ok ((intervalReport st pos).setOperand .repetition, body.length + 3) := by
  have hfind : Text.find? ['\\', '\x7d'] (body ++ '\\' :: '\x7d' :: after)
      = some body.length := by
    simpa [Text.find?] using Text.findFrom_append ['\x7d'] after 0 h.plain
  rw [intervalStep, hfind]
  simp only [List.take_left, h.low, h.high, Bool.and_self, Bool.not_true, Bool.false_eq_true,
    if_false]
  split
  · rename_i hboth
    obtain hnil | ⟨a, b, ha, hb, hle⟩ := h.ordered
    · simp [hnil] at hboth
    · rw [ha, hb]
      exact if_neg (Int.not_lt.mpr hle)
  · rfl

theorem goes_braced {body : List Char} (h : Bounds body) (hs : Repeatable may s.state.operand)
    (after : List Char) :
    ∃ t, Goes may s (braced body) after [⟨braced body, s.state.groups.length⟩] t := by
  have hstep : step s.state s.before s.pos '\\' (('\x7b' :: (body ++ ['\\', '\x7d'])) ++ after)
      = .ok ((intervalReport s.state s.pos).setOperand .repetition,
        ('\x7b' :: (body ++ ['\\', '\x7d'])).length) := by
    have := intervalStep_eq h s.state s.pos after
    simpa [step, escapeStep] using this
  refine ⟨_, .token hstep ?_ ?_⟩
  · simp only [intervalReport]
    split <;> rfl
  · obtain hitem | ⟨hnothing, -, hmay⟩ := hs
    · exact .of_eq (by simp [intervalReport, hitem, State.setOperand])
    · have hreport : intervalReport s.state s.pos = s.state.report s.pos .repeatedNothing := by
        simp [intervalReport, hnothing]
      exact .one hmay (by rw [hreport]; rfl)

/-- The linter passes a mark behind something that can be repeated. -/
theorem Mark.goes (h : Mark mark) (hs : Repeatable may s.state.operand)
    (hafter : after.head? ≠ some '?') :
    ∃ ts t, Goes may s mark after ts t ∧ ∀ k ∈ ts, k.text ≠ ['\\', '|'] := by
  cases h with
  | @many op greedy hop =>
    obtain hitem | ⟨hnothing, hmay, -⟩ := hs
    · obtain ⟨t, hgoes⟩ := goes_many_item may greedy hop hitem hafter
      refine ⟨_, t, hgoes, ?_⟩
      cases greedy <;> simp [manyMark]
    · exact goes_many_nothing greedy hop hnothing (hmay op hop) hafter
  | bound h =>
    obtain ⟨body, rfl, hbody⟩ := boundMark_bounds h
    obtain ⟨t, hgoes⟩ := goes_braced hbody hs after
    exact ⟨_, t, hgoes, by simp [braced]⟩

end PatternLint.Rx
