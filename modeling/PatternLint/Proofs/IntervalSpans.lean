import PatternLint.Proofs.BracketReading
import PatternLint.Proofs.SetArguments

/-! Intervals of character codes as spans of a set. What stands behind the text of an interval must
not join it to a range or to the name of a class; then the linter finds exactly the spans. -/

namespace PatternLint.Rx

open Pattern (Span)
open Pattern.Regexp (Element Lists Behind)

/-- A text that may stand behind the character of a code: it makes no range of the character, nor
the name of a class. -/
def After (n : Int) (cs : List Char) : Prop :=
  ∃ x rest, cs = x :: rest ∧ (x = '-' → ∃ more, rest = ']' :: more) ∧ (x = ':' → n < 58)

theorem After.of_cons {n : Int} {x : Char} {rest : List Char} (hrange : x ≠ '-') (hname : x ≠ ':') :
    After n (x :: rest) :=
  ⟨x, rest, rfl, fun h => absurd h hrange, fun h => absurd h hname⟩

theorem After.of_hyphen {n : Int} {more : List Char} : After n ('-' :: ']' :: more) :=
  ⟨'-', ']' :: more, rfl, fun _ => ⟨more, rfl⟩, fun h => absurd h (by decide)⟩

theorem After.behind_of_ne {n : Int} {c : Char} {cs : List Char} (h : After n cs) (hc : c ≠ '[') :
    Behind c cs := by
  obtain ⟨x, rest, hcs, hrange, _⟩ := h
  exact ⟨x, rest, hcs, hrange, fun h => absurd h hc⟩

theorem charOf_toNat (c : Char) : Pattern.charOf c.toNat = .ok c := by
  have hvalid : c.toNat.isValidChar := c.valid
  have hlt : c.toNat < 0x110000 := by simp only [Nat.isValidChar] at hvalid; omega
  rw [Pattern.charOf, if_neg (by omega), if_neg (by omega), Int.toNat_natCast, if_pos hvalid,
    Char.ofNat_toNat]

theorem toNat_inj {a b : Char} : (a.toNat : Int) = b.toNat ↔ a = b :=
  Int.natCast_inj.trans Char.toNat_inj

/-- Only codes of no character become the replacement character. -/
theorem charOf_eq_ok {n : Int} {c : Char} (h : Pattern.charOf n = .ok c) (hc : c ≠ '\ufffd') :
    n = c.toNat := by
  unfold Pattern.charOf at h
  split at h
  · cases h
  split at h
  · cases h
  split at h
  · cases h
    rename_i hrange hvalid
    have hcode : (Char.ofNat n.toNat).toNat = n.toNat := by
      rw [Char.ofNat, dif_pos hvalid]
      rfl
    omega
  · cases h
    exact absurd rfl hc

/-- The spans that an interval becomes, and their text. -/
inductive Spells : Int × Int → List Char → List Span → Prop
  | none (h : hi < lo) : Spells (lo, hi) [] []
  | single (ha : Pattern.charOf lo = .ok a) : Spells (lo, lo) [a] [.single a]
  | pair (ha : Pattern.charOf lo = .ok a) (hb : Pattern.charOf (lo + 1) = .ok b) :
      Spells (lo, lo + 1) [a, b] [.single a, .single b]
  | range (h : lo + 1 < hi) (ha : Pattern.charOf lo = .ok a) (hb : Pattern.charOf hi = .ok b) :
      Spells (lo, hi) [a, '-', b] [⟨a, b⟩]

/-- The spans of several intervals, and the texts one behind the other. -/
inductive SpellsAll : List (Int × Int) → List Char → List Span → Prop
  | nil : SpellsAll [] [] []
  | cons (h : Spells p text spans) (hs : SpellsAll ps more others) :
      SpellsAll (p :: ps) (text ++ more) (spans ++ others)

theorem intervalText_spells {p : Int × Int} {text : List Char} (h : intervalText p = .ok text) :
    ∃ spans, Spells p text spans := by
  obtain ⟨lo, hi⟩ := p
  unfold intervalText at h
  dsimp only at h
  split at h
  · cases h
    exact ⟨_, .none ‹_›⟩
  split at h
  · rename_i heq
    obtain ⟨a, ha, h⟩ := except_bind_eq_ok.mp h
    cases h
    exact heq ▸ ⟨_, .single ha⟩
  split at h
  · rename_i heq
    obtain ⟨a, ha, h⟩ := except_bind_eq_ok.mp h
    obtain ⟨b, hb, h⟩ := except_bind_eq_ok.mp h
    cases h
    subst heq
    exact ⟨_, .pair ha hb⟩
  · obtain ⟨a, ha, h⟩ := except_bind_eq_ok.mp h
    obtain ⟨b, hb, h⟩ := except_bind_eq_ok.mp h
    cases h
    exact ⟨_, .range (by omega) ha hb⟩

/-- The ends of an interval mean nothing of their own in a set, where they are written. -/
def Plain (p : Int × Int) : Prop :=
  p.1 ≤ p.2 → p.1 ≠ hyphenCode ∧ p.1 ≠ bracketCode ∧ p.1 ≠ caretCode ∧ p.2 ≠ bracketCode

section
variable {p : Int × Int} {n : Int} {a b c : Char} {text rest : List Char} {spans : List Span}
  {es : List Element}

theorem ne_of_charOf {x : Char} (ha : Pattern.charOf n = .ok a) (hn : n ≠ (x.toNat : Int))
    (hx : x ≠ '\ufffd') : a ≠ x := by
  rintro rfl
  exact hn (charOf_eq_ok ha hx)

theorem After.behind (h : After n rest) (ha : Pattern.charOf n = .ok a) : Behind a rest := by
  obtain ⟨x, more, hcs, hrange, hname⟩ := h
  refine ⟨x, more, hcs, hrange, ?_⟩
  rintro rfl hx
  have hcode := charOf_eq_ok ha (by decide)
  have := hname hx
  rw [hcode] at this
  exact absurd this (by decide)

/-- The spans of an interval are elements, in front of what does not join them. -/
theorem Spells.lists (h : Spells p text spans) (hplain : Plain p) (hrest : Lists false rest es)
    (hafter : After p.2 rest) (hcomma : p = (44, 45) → ∃ more, rest = ']' :: more) :
    Lists false (text ++ rest) (spans.map .span ++ es) := by
  cases h with
  | none => exact hrest
  | @single lo a ha =>
    obtain ⟨-, hbracket, -, -⟩ := hplain (Int.le_refl _)
    exact hrest.single (.inl (ne_of_charOf ha hbracket (by decide))) (hafter.behind ha)
  | @pair lo a b ha hb =>
    obtain ⟨-, hbracket, -, hbracket'⟩ := hplain (by simp only; omega)
    have hlast : Lists false (b :: rest) (.span (.single b) :: es) :=
      hrest.single (.inl (ne_of_charOf hb hbracket' (by decide))) (hafter.behind hb)
    refine hlast.single (.inl (ne_of_charOf ha hbracket (by decide))) ⟨b, rest, rfl, ?_, ?_⟩
    · rintro rfl
      have hcode := charOf_eq_ok hb (by decide)
      obtain rfl : lo = 44 := by
        have : ('-'.toNat : Int) = 45 := rfl
        omega
      exact hcomma rfl
    · rintro rfl rfl
      have hcode := charOf_eq_ok ha (by decide)
      have hcode' := charOf_eq_ok hb (by decide)
      rw [hcode] at hcode'
      exact absurd hcode' (by decide)
  | @range lo hi a b hlt ha hb =>
    obtain ⟨-, hbracket, -, hbracket'⟩ := hplain (by simp only; omega)
    exact hrest.range (.inl (ne_of_charOf ha hbracket (by decide)))
      (ne_of_charOf hb hbracket' (by decide))

/-- The first character of an interval, if it has a text. -/
theorem Spells.head (h : Spells p text spans) :
    text = [] ∧ p.2 < p.1 ∨
      ∃ a more, text = a :: more ∧ Pattern.charOf p.1 = .ok a ∧ p.1 ≤ p.2 := by
  cases h with
  | none h => exact .inl ⟨rfl, h⟩
  | single ha => exact .inr ⟨_, _, rfl, ha, Int.le_refl _⟩
  | pair ha => exact .inr ⟨_, _, rfl, ha, by simp only; omega⟩
  | range h ha => exact .inr ⟨_, _, rfl, ha, by simp only; omega⟩

/-- The character that the text of an interval starts with means nothing at the start of a set, and
joins nothing before it. -/
theorem Spells.start (h : Spells p text spans) (hplain : Plain p) (htext : text = a :: rest) :
    a ≠ '-' ∧ a ≠ ']' ∧ a ≠ '^' ∧ (a = ':' → p.1 < 59) := by
  obtain ⟨hnil, -⟩ | ⟨a', more, hcons, ha, hle⟩ := h.head
  · cases hnil.symm.trans htext
  · cases hcons.symm.trans htext
    obtain ⟨hhyphen, hbracket, hcaret, -⟩ := hplain hle
    refine ⟨ne_of_charOf ha hhyphen (by decide), ne_of_charOf ha hbracket (by decide),
      ne_of_charOf ha hcaret (by decide), ?_⟩
    rintro rfl
    rw [charOf_eq_ok ha (by decide)]
    decide

theorem spellsAll_of_mapM {α : Type} {f : α → Except Fault (List Char)} {g : α → Int × Int}
    {xs : List α} {texts : List (List Char)}
    (hf : ∀ x ∈ xs, ∀ text, f x = .ok text → ∃ spans, Spells (g x) text spans)
    (h : xs.mapM f = .ok texts) : ∃ spans, SpellsAll (xs.map g) texts.flatten spans := by
  induction xs generalizing texts with
  | nil =>
    cases h
    exact ⟨_, .nil⟩
  | cons x xs ih =>
    rw [List.mapM_cons] at h
    obtain ⟨text, htext, h⟩ := except_bind_eq_ok.mp h
    obtain ⟨more, hmore, h⟩ := except_bind_eq_ok.mp h
    cases h
    obtain ⟨hx, hxs⟩ := List.forall_mem_cons.mp hf
    obtain ⟨spans, hspans⟩ := hx text htext
    obtain ⟨others, hothers⟩ := ih hxs hmore
    exact ⟨_, .cons hspans hothers⟩

variable {ps : List (Int × Int)}

/-- Intervals in ascending order that can be written one behind the other. -/
structure Writable (ps : List (Int × Int)) : Prop where
  ascending : ps.Pairwise fun p q => p.2 < q.1
  plain : ∀ p ∈ ps, Plain p
  /-- A comma and a hyphen on their own come last: before something else they would be the start of
  a range. -/
  comma : ps.Pairwise fun p _ => p ≠ (44, 45)

theorem Writable.tail (h : Writable (p :: ps)) : Writable ps :=
  ⟨(List.pairwise_cons.mp h.ascending).2, (List.forall_mem_cons.mp h.plain).2,
    (List.pairwise_cons.mp h.comma).2⟩

theorem SpellsAll.after (h : SpellsAll ps text spans) (hps : Writable ps) (hn : ∀ p ∈ ps, n < p.1)
    (hrest : ∀ n, After n rest) : After n (text ++ rest) := by
  induction h with
  | nil => exact hrest n
  | @cons p text spans ps more others h _ ih =>
    obtain ⟨hp, hn⟩ := List.forall_mem_cons.mp hn
    rw [List.append_assoc]
    match htext : text with
    | [] => exact ih hps.tail hn
    | a :: text =>
      obtain ⟨hhyphen, -, -, hcolon⟩ := h.start (hps.plain _ List.mem_cons_self) rfl
      refine ⟨a, _, rfl, fun ha => absurd ha hhyphen, fun ha => ?_⟩
      have := hcolon ha
      omega

theorem SpellsAll.lists (h : SpellsAll ps text spans) (hps : Writable ps)
    (hrest : Lists false rest es) (hafter : ∀ n, After n rest)
    (hcomma : (44, 45) ∈ ps → ∃ more, rest = ']' :: more) :
    Lists false (text ++ rest) (spans.map .span ++ es) := by
  induction h with
  | nil => exact hrest
  | @cons p text spans ps more others h hs ih =>
    have hlists := ih hps.tail fun hmem => hcomma (List.mem_cons_of_mem _ hmem)
    have hbelow := (List.pairwise_cons.mp hps.ascending).1
    rw [List.map_append, List.append_assoc, List.append_assoc]
    refine h.lists (hps.plain _ List.mem_cons_self) hlists (hs.after hps.tail hbelow hafter) ?_
    rintro rfl
    cases hs with
    | nil => exact hcomma List.mem_cons_self
    | cons => exact absurd rfl ((List.pairwise_cons.mp hps.comma).1 _ List.mem_cons_self)

theorem SpellsAll.start (h : SpellsAll ps text spans) (hps : ∀ p ∈ ps, Plain p)
    (ha : text.head? = some a) : a ≠ '-' ∧ a ≠ ']' ∧ a ≠ '^' := by
  induction h with
  | nil => cases ha
  | @cons p text spans ps more others h _ ih =>
    obtain ⟨hp, hps⟩ := List.forall_mem_cons.mp hps
    match htext : text with
    | [] => exact ih hps ha
    | x :: text =>
      cases ha
      obtain ⟨hhyphen, hbracket, hcaret, -⟩ := h.start hp rfl
      exact ⟨hhyphen, hbracket, hcaret⟩

theorem SpellsAll.behind (h : SpellsAll ps text spans) (hps : ∀ p ∈ ps, Plain p) (hc : c ≠ '[')
    (hrest : Behind c rest) : Behind c (text ++ rest) := by
  match text with
  | [] => exact hrest
  | a :: text =>
    exact ⟨a, _, rfl, fun ha => absurd ha (h.start hps rfl).1, fun h => absurd h hc⟩

theorem SpellsAll.empty (h : SpellsAll ps [] spans) : ∀ p ∈ ps, p.2 < p.1 := by
  generalize htext : [] = text at h
  induction h with
  | nil => simp
  | @cons p text spans ps more others h _ ih =>
    obtain ⟨rfl, rfl⟩ := List.append_eq_nil_iff.mp htext.symm
    obtain ⟨-, hlt⟩ | ⟨a, more, hcons, -⟩ := h.head
    · exact List.forall_mem_cons.mpr ⟨hlt, ih rfl⟩
    · cases hcons

end

/-! ### Intervals of character codes -/

section
variable {p : Int × Int} {ps : List (Int × Int)} {n : Int} {c : Char} {text : List Char}
  {spans : List Span}

theorem charOf_ok (hn : IsCode n) : ∃ c, Pattern.charOf n = .ok c ∧ n = c.toNat := by
  obtain ⟨c, rfl⟩ := hn
  exact ⟨c, charOf_toNat c, rfl⟩

theorem charOf_code (h : Pattern.charOf n = .ok c) (hn : IsCode n) : n = c.toNat := by
  obtain ⟨c', hc', hn⟩ := charOf_ok hn
  cases hc'.symm.trans h
  exact hn

theorem intervalText_ok (hcodes : IsCode p.1 ∧ IsCode p.2) : ∃ text, intervalText p = .ok text := by
  obtain ⟨a, ha, -⟩ := charOf_ok hcodes.1
  obtain ⟨b, hb, -⟩ := charOf_ok hcodes.2
  simp only [intervalText, ha, hb]
  split
  · exact ⟨_, rfl⟩
  split
  · exact ⟨_, rfl⟩
  split <;> exact ⟨_, rfl⟩

/-- No span is reversed, and they ascend. -/
structure Orderly (spans : List Span) : Prop where
  le : ∀ s ∈ spans, s.lo ≤ s.hi
  ascending : spans.Pairwise fun s t => s.hi < t.lo

theorem Spells.within (h : Spells p text spans) (hcodes : IsCode p.1 ∧ IsCode p.2) (c : Char) :
    (∃ s ∈ spans, s.lo ≤ c ∧ c ≤ s.hi) ↔ p.1 ≤ c.toNat ∧ c.toNat ≤ p.2 := by
  have hle (a b : Char) : a ≤ b ↔ (a.toNat : Int) ≤ b.toNat := Int.ofNat_le.symm
  cases h with
  | none => simp; omega
  | single ha =>
    simp only [List.mem_singleton, exists_eq_left, Span.single, hle, charOf_code ha hcodes.1]
  | pair ha hb =>
    have hlo := charOf_code ha hcodes.1
    have hhi := charOf_code hb hcodes.2
    simp only [List.mem_cons, List.not_mem_nil, or_false, exists_eq_or_imp, exists_eq_left,
      Span.single, hle]
    omega
  | range _ ha hb =>
    simp only [List.mem_singleton, exists_eq_left, hle, charOf_code ha hcodes.1,
      charOf_code hb hcodes.2]

theorem Spells.orderly (h : Spells p text spans) (hcodes : IsCode p.1 ∧ IsCode p.2) :
    Orderly spans := by
  cases h with
  | none => exact ⟨nofun, .nil⟩
  | single => exact ⟨by simp [Span.single], List.pairwise_singleton _ _⟩
  | @pair lo a b ha hb =>
    have hlo := charOf_code ha hcodes.1
    have hhi := charOf_code hb hcodes.2
    refine ⟨by simp [Span.single], List.pairwise_pair.mpr (Char.not_le.mp fun hle => ?_)⟩
    have hle : (b.toNat : Int) ≤ a.toNat := Int.ofNat_le.mpr hle
    omega
  | @range lo hi a b hlt ha hb =>
    have hlo := charOf_code ha hcodes.1
    have hhi := charOf_code hb hcodes.2
    have hle : (a.toNat : Int) ≤ b.toNat := by omega
    exact ⟨List.forall_mem_singleton.mpr (Int.ofNat_le.mp hle), List.pairwise_singleton _ _⟩

theorem SpellsAll.within (h : SpellsAll ps text spans) (hcodes : ∀ p ∈ ps, IsCode p.1 ∧ IsCode p.2)
    (c : Char) : (∃ s ∈ spans, s.lo ≤ c ∧ c ≤ s.hi) ↔ Covers ps c.toNat := by
  induction h with
  | nil => simp
  | cons h _ ih =>
    obtain ⟨hp, hps⟩ := List.forall_mem_cons.mp hcodes
    rw [covers_cons, ← ih hps, ← h.within hp]
    simp only [List.mem_append, or_and_right, exists_or]

theorem SpellsAll.orderly (h : SpellsAll ps text spans)
    (hcodes : ∀ p ∈ ps, IsCode p.1 ∧ IsCode p.2) (hasc : ps.Pairwise fun p q => p.2 < q.1) :
    Orderly spans := by
  induction h with
  | nil => exact ⟨nofun, .nil⟩
  | cons h hs ih =>
    obtain ⟨hp, hps⟩ := List.forall_mem_cons.mp hcodes
    obtain ⟨hbelow, hasc⟩ := List.pairwise_cons.mp hasc
    have hhead := h.orderly hp
    have htail := ih hps hasc
    refine ⟨List.forall_mem_append.mpr ⟨hhead.le, htail.le⟩, List.pairwise_append.mpr
      ⟨hhead.ascending, htail.ascending, fun s hs' t ht => Char.not_le.mp fun hle => ?_⟩⟩
    -- The end of the one span lies in the first interval, and the start of the other in a later
    -- one.
    have hend := (h.within hp s.hi).mp ⟨s, hs', hhead.le s hs', Char.le_refl _⟩
    obtain ⟨q, hq, hstart⟩ := (hs.within hps t.lo).mp ⟨t, ht, Char.le_refl _, htail.le t ht⟩
    have := hbelow q hq
    have hle : (t.lo.toNat : Int) ≤ s.hi.toNat := Int.ofNat_le.mpr hle
    omega

end

end PatternLint.Rx
