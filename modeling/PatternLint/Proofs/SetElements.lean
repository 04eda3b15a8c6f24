import Mathlib.Data.List.Basic
import PatternLint.Proofs.IntervalSpans

/-! The elements that a written set holds. A closing bracket, a caret and a hyphen are written on
their own, so that the linter takes everything between the brackets for what it was written as. -/

namespace PatternLint.Rx

open Pattern (Span charClasses)
open Pattern.Regexp (Element Lists Behind)

/-! ### The pieces of a set -/

/-- A comma and a hyphen are an interval of their own, and more follows them in the bracket
expression. -/
def CharSet.StrayHyphen (set : CharSet) : Prop :=
  (44, 45) ∈ set.intervals ∧
    (set.classes ≠ [] ∨ ∃ p ∈ set.intervals, 45 < p.2 ∧ p ≠ (bracketCode, bracketCode))

instance (set : CharSet) : Decidable set.StrayHyphen :=
  inferInstanceAs (Decidable (_ ∧ _))

/-- The intervals without the closing bracket. -/
def CharSet.pieces (set : CharSet) : List (Int × Int) :=
  set.intervals.flatMap withoutBracket

/-- An interval with the bracket inside is cut in two, without it. -/
theorem mem_withoutBracket {p q : Int × Int} : q ∈ withoutBracket p ↔
    (¬ (p.1 ≤ bracketCode ∧ bracketCode ≤ p.2) ∧ q = p) ∨
    ((p.1 ≤ bracketCode ∧ bracketCode ≤ p.2) ∧ q.1 ≤ q.2 ∧
      (q = (p.1, bracketCode - 1) ∨ q = (bracketCode + 1, p.2))) := by
  obtain ⟨lo, hi⟩ := p
  by_cases h : lo ≤ bracketCode ∧ bracketCode ≤ hi
  · simp [withoutBracket, h]
    grind
  · simp [withoutBracket, h]

theorem withoutBracket_ascending (p : Int × Int) :
    (withoutBracket p).Pairwise fun p q => p.2 < q.1 := by
  obtain ⟨lo, hi⟩ := p
  by_cases h : lo ≤ bracketCode ∧ bracketCode ≤ hi
  · simp only [withoutBracket, if_pos h]
    refine List.Pairwise.filter _ (List.pairwise_pair.mpr ?_)
    simp only
    omega
  · simp [withoutBracket, if_neg h]

/-- What is left of an interval lies within it and does not hold the bracket. -/
theorem withoutBracket_within {p q : Int × Int} (hp : p.1 ≤ p.2) (h : q ∈ withoutBracket p) :
    p.1 ≤ q.1 ∧ q.1 ≤ q.2 ∧ q.2 ≤ p.2 ∧ ¬ (q.1 ≤ bracketCode ∧ bracketCode ≤ q.2) := by
  obtain ⟨hout, rfl⟩ | ⟨hin, hq, rfl | rfl⟩ := mem_withoutBracket.mp h
  · exact ⟨Int.le_refl _, hp, Int.le_refl _, hout⟩
  · simp only at hq ⊢
    omega
  · simp only at hq ⊢
    omega

/-- Where a piece starts without the characters that are written on their own. -/
theorem trimStart_eq (p : Int × Int) :
    (p.1 = hyphenCode ∧ trimStart p = (46, p.2)) ∨ (p.1 = caretCode ∧ trimStart p = (95, p.2)) ∨
      (p.1 ≠ hyphenCode ∧ p.1 ≠ caretCode ∧ trimStart p = p) := by
  obtain ⟨lo, hi⟩ := p
  by_cases hhyphen : lo = hyphenCode
  · exact .inl ⟨hhyphen, by simp [trimStart, hhyphen, hyphenCode, caretCode]⟩
  · by_cases hcaret : lo = caretCode
    · exact .inr (.inl ⟨hcaret, by simp [trimStart, hcaret, hyphenCode, caretCode]⟩)
    · exact .inr (.inr ⟨hhyphen, hcaret, by simp [trimStart, hhyphen, hcaret]⟩)

theorem trimStart_within (p : Int × Int) : p.1 ≤ (trimStart p).1 ∧ (trimStart p).2 = p.2 := by
  obtain ⟨hstart, heq⟩ | ⟨hstart, heq⟩ | ⟨-, -, heq⟩ := trimStart_eq p
  · rw [heq, hstart]
    exact ⟨(by decide : hyphenCode ≤ 46), rfl⟩
  · rw [heq, hstart]
    exact ⟨(by decide : caretCode ≤ 95), rfl⟩
  · rw [heq]
    exact ⟨Int.le_refl _, rfl⟩

/-- Nothing but a hyphen or a caret of its own leaves nothing. -/
theorem trimStart_empty {p : Int × Int} (hle : p.1 ≤ p.2) (h : (trimStart p).2 < (trimStart p).1) :
    p = (hyphenCode, hyphenCode) ∨ p = (caretCode, caretCode) := by
  obtain ⟨hstart, heq⟩ | ⟨hstart, heq⟩ | ⟨-, -, heq⟩ := trimStart_eq p
  · rw [heq] at h
    simp only [hyphenCode] at hstart h
    exact .inl (Prod.ext hstart (by simp only [hyphenCode]; omega))
  · rw [heq] at h
    simp only [caretCode] at hstart h
    exact .inr (Prod.ext hstart (by simp only [caretCode]; omega))
  · rw [heq] at h
    omega

/-- What is left of an interval begins with a character that stands for itself. -/
theorem trimStart_plain {p : Int × Int} (hle : p.1 ≤ p.2)
    (hout : ¬ (p.1 ≤ bracketCode ∧ bracketCode ≤ p.2)) : Plain (trimStart p) := by
  intro hne
  simp only [bracketCode] at hout
  obtain ⟨hstart, heq⟩ | ⟨hstart, heq⟩ | ⟨hhyphen, hcaret, heq⟩ := trimStart_eq p
  · rw [heq]
    simp only [hyphenCode, bracketCode, caretCode] at *
    omega
  · rw [heq]
    simp only [hyphenCode, bracketCode, caretCode] at *
    omega
  · rw [heq]
    simp only [hyphenCode, bracketCode, caretCode] at *
    omega

theorem trimStart_eq_comma {p : Int × Int} (h : trimStart p = (44, 45)) : p = (44, 45) := by
  obtain ⟨-, heq⟩ | ⟨-, heq⟩ | ⟨-, -, heq⟩ := trimStart_eq p
  · cases heq.symm.trans h
  · cases heq.symm.trans h
  · exact heq.symm.trans h

section
variable {set : CharSet} {p q : Int × Int}

/-- A piece lies within one of the intervals. -/
theorem pieces_within (h : Apart set.intervals) (hq : q ∈ set.pieces) :
    ∃ p ∈ set.intervals, p.1 ≤ q.1 ∧ q.1 ≤ q.2 ∧ q.2 ≤ p.2 ∧
      ¬ (q.1 ≤ bracketCode ∧ bracketCode ≤ q.2) := by
  obtain ⟨p, hp, hq⟩ := List.mem_flatMap.mp hq
  exact ⟨p, hp, withoutBracket_within (h.nonempty p hp) hq⟩

/-- Pieces of intervals that are apart are in order and apart. -/
theorem pieces_ascending (h : Apart set.intervals) : set.pieces.Pairwise fun p q => p.2 < q.1 := by
  refine List.pairwise_flatMap.mpr ⟨fun p _ => withoutBracket_ascending p, ?_⟩
  refine h.gaps.imp_of_mem fun hp hp' hgap q hq q' hq' => ?_
  have := withoutBracket_within (h.nonempty _ hp) hq
  have := withoutBracket_within (h.nonempty _ hp') hq'
  omega

/-- Pieces that share a character are the same. -/
theorem pieces_eq_of_meet (h : Apart set.intervals) (hp : p ∈ set.pieces) (hq : q ∈ set.pieces)
    (hpq : p.1 ≤ q.2) (hqp : q.1 ≤ p.2) : p = q := by
  have hasc := pieces_ascending h
  have hall := List.Pairwise.forall_of_forall_of_flip
    (R := fun p q : Int × Int => p.1 ≤ q.2 → q.1 ≤ p.2 → p = q) (fun _ _ _ _ => rfl)
    (hasc.imp fun hlt _ _ => by omega) (hasc.imp fun hlt hle _ => by omega)
  exact hall hp hq hpq hqp

/-- Without a stray hyphen, a comma and a hyphen on their own are the last piece of a set without
classes. -/
theorem last_piece (hclear : ¬ set.StrayHyphen) (h : Apart set.intervals)
    (hp : (44, 45) ∈ set.pieces) : set.classes = [] ∧ ∀ q ∈ set.pieces, q.2 ≤ 45 := by
  obtain ⟨p, hmem, hp⟩ := List.mem_flatMap.mp hp
  obtain ⟨-, rfl⟩ | ⟨hin, -, hp | hp⟩ := mem_withoutBracket.mp hp
  · simp only [CharSet.StrayHyphen, hmem, true_and, not_or, not_exists, not_and, ne_eq,
      Classical.not_not] at hclear
    refine ⟨hclear.1, fun q hq => ?_⟩
    obtain ⟨r, hr, hq⟩ := List.mem_flatMap.mp hq
    refine Int.not_lt.mp fun hlt => ?_
    have hwithin := withoutBracket_within (h.nonempty r hr) hq
    have hbracket := hclear.2 r hr (by omega)
    subst hbracket
    simp only [bracketCode] at hwithin
    omega
  · simp [bracketCode] at hp
  · simp [bracketCode] at hp

theorem trimmed_ascending (h : Apart set.intervals) :
    (set.pieces.map trimStart).Pairwise fun p q => p.2 < q.1 := by
  refine List.pairwise_map.mpr ((pieces_ascending h).imp fun {p q} hlt => ?_)
  have := trimStart_within p
  have := trimStart_within q
  omega

/-- Pieces can be written one after the other unless a hyphen strays between them. -/
theorem pieces_writable (hclear : ¬ set.StrayHyphen) (h : Apart set.intervals) :
    Writable (set.pieces.map trimStart) := by
  have hwithin {p : Int × Int} (hp : p ∈ set.pieces) := pieces_within h hp
  refine ⟨trimmed_ascending h, ?_, ?_⟩
  · refine List.forall_mem_map.mpr fun p hp => ?_
    obtain ⟨-, -, -, hle, -, hout⟩ := hwithin hp
    exact trimStart_plain hle hout
  · refine List.pairwise_map.mpr ((pieces_ascending h).imp_of_mem fun {p q} hp hq hlt heq => ?_)
    obtain rfl := trimStart_eq_comma heq
    obtain ⟨-, -, -, hle, -, -⟩ := hwithin hq
    have := (last_piece hclear h hp).2 q hq
    simp only at hlt
    omega

/-! ### The bracket expression -/

/-- The parts of a bracket expression that are written on their own. -/
def CharSet.hasBracket (set : CharSet) : Bool :=
  set.intervals.any fun p => p.1 ≤ bracketCode && bracketCode ≤ p.2

def CharSet.startsAt (set : CharSet) (code : Int) : Bool :=
  set.pieces.any fun p => p.1 == code

/-- What follows the pieces of a set. -/
def ending (classes : List String) (caret hyphen : Bool) : List Char :=
  classes.flatMap classText ++
    ((if caret then ['^'] else []) ++ ((if hyphen then ['-'] else []) ++ [']']))

def CharSet.ending (set : CharSet) : List Char :=
  Rx.ending set.classes (set.startsAt caretCode) (set.startsAt hyphenCode)

/-- A character on its own. -/
def lone (c : Char) (here : Bool) : List Element :=
  if here then [.span (.single c)] else []

/-- The elements of a set with these spans. -/
def CharSet.elements (set : CharSet) (spans : List Span) : List Element :=
  lone ']' set.hasBracket ++ (spans.map .span ++ (set.classes.map .named ++
    (lone '^' (set.startsAt caretCode) ++ lone '-' (set.startsAt hyphenCode))))

theorem startsAt_iff {code : Int} : set.startsAt code = true ↔ ∃ p ∈ set.pieces, p.1 = code := by
  simp only [CharSet.startsAt, List.any_eq_true, beq_iff_eq]

/-- Named classes stand before the caret and the hyphen. -/
theorem ending_cons {name : String} {classes : List String} {caret hyphen : Bool} :
    ending (name :: classes) caret hyphen
      = '[' :: (':' :: name.toList ++ [':', ']'] ++ ending classes caret hyphen) := by
  simp [ending, classText]

/-- The ending does not go on with an interval. -/
theorem after_ending (classes : List String) (caret hyphen : Bool) (n : Int) :
    After n (ending classes caret hyphen) := by
  cases classes with
  | nil =>
    match caret, hyphen with
    | true, _ => exact .of_cons (by decide) (by decide)
    | false, true => exact .of_hyphen
    | false, false => exact .of_cons (by decide) (by decide)
  | cons name classes => exact ending_cons ▸ .of_cons (by decide) (by decide)

/-- A closing bracket comes first only if there is nothing else. -/
theorem ending_head {classes : List String} {caret hyphen : Bool}
    (h : (ending classes caret hyphen).head? = some ']') :
    classes = [] ∧ caret = false ∧ hyphen = false := by
  cases classes with
  | nil => cases caret <;> cases hyphen <;> simp_all [ending]
  | cons name classes => simp [ending_cons] at h

theorem lists_lone {c : Char} {rest : List Char} {es : List Element} (here : Bool)
    (h : Lists false rest es) (hc : c ≠ ']') (hb : Behind c rest) :
    Lists false ((if here then [c] else []) ++ rest) (lone c here ++ es) := by
  cases here with
  | true => exact h.single (.inl hc) hb
  | false => exact h

/-- What the ending writes is read as classes, a caret and a hyphen. -/
theorem lists_ending {classes : List String} (h : ∀ name ∈ classes, name ∈ charClasses)
    (caret hyphen : Bool) :
    Lists false (ending classes caret hyphen)
      (classes.map .named ++ (lone '^' caret ++ lone '-' hyphen)) := by
  induction classes with
  | nil =>
    have hclose : After 0 [']'] := .of_cons (by decide) (by decide)
    have hhyphen := lists_lone hyphen .close (by decide : '-' ≠ ']')
      (hclose.behind_of_ne (by decide))
    have hafter : After 0 ((if hyphen then ['-'] else []) ++ [']']) :=
      after_ending [] false hyphen _
    have hcaret := lists_lone caret hhyphen (by decide : '^' ≠ ']')
      (hafter.behind_of_ne (by decide))
    simpa [ending] using hcaret
  | cons name classes ih =>
    obtain ⟨hname, hclasses⟩ := List.forall_mem_cons.mp h
    rw [ending_cons]
    exact (ih hclasses).named hname

theorem ending_of_last (h : Apart set.intervals) (hclear : ¬ set.StrayHyphen)
    (hp : (44, 45) ∈ set.pieces) : set.ending = [']'] := by
  obtain ⟨hclasses, hlast⟩ := last_piece hclear h hp
  have hnone {code : Int} (hcode : 45 ≤ code) : set.startsAt code = false := by
    rw [Bool.eq_false_iff, ne_eq, startsAt_iff]
    rintro ⟨q, hq, rfl⟩
    have := hlast q hq
    obtain ⟨-, -, -, hle, -, -⟩ := pieces_within h hq
    have hpq := pieces_eq_of_meet h hp hq (by simp only; omega) (by simp only; omega)
    rw [← hpq] at hcode
    exact absurd hcode (by decide)
  simp [CharSet.ending, Rx.ending, hclasses, hnone (by decide : 45 ≤ caretCode),
    hnone (by decide : 45 ≤ hyphenCode)]

variable {middle : List Char} {spans : List Span}

section
variable {ps : List (Int × Int)} {classes : List String} {bracket caret hyphen : Bool}

/-- The elements between the brackets: a closing bracket first, a hyphen last, a caret anywhere but
first. -/
theorem lists_body (hspells : SpellsAll ps middle spans) (hps : Writable ps)
    (hknown : ∀ name ∈ classes, name ∈ charClasses)
    (hcomma : (44, 45) ∈ ps → ending classes caret hyphen = [']'])
    (hne : bracket = false → middle = [] → classes = [] → caret = false → hyphen = true) :
    Lists true ((if bracket then [']'] else []) ++ (middle ++ ending classes caret hyphen))
      (lone ']' bracket ++ (spans.map .span ++
        (classes.map .named ++ (lone '^' caret ++ lone '-' hyphen)))) := by
  have hinner := hspells.lists hps (lists_ending hknown caret hyphen) (after_ending _ _ _)
    fun hmem => ⟨[], hcomma hmem⟩
  cases bracket with
  | true =>
    have hend : Behind ']' (ending classes caret hyphen) :=
      (after_ending _ _ _ 0).behind_of_ne (by decide)
    exact hinner.single (.inr rfl) (hspells.behind hps.plain (by decide) hend)
  | false =>
    refine hinner.at_start fun hhead => ?_
    match middle with
    | x :: text => exact (hspells.start hps.plain rfl).2.1 (Option.some.inj hhead)
    | [] =>
      obtain ⟨hclasses, hcaret, hhyphen⟩ := ending_head hhead
      rw [hne rfl rfl hclasses hcaret] at hhyphen
      cases hhyphen

/-- A caret comes first only where nothing else can. -/
theorem body_head (hspells : SpellsAll ps middle spans) (hps : Writable ps)
    (hne : bracket = false → middle = [] → classes = [] → caret = false) :
    ((if bracket then [']'] else []) ++ (middle ++ ending classes caret hyphen)).head?
      ≠ some '^' := by
  cases bracket with
  | true => simp
  | false =>
    match middle, classes with
    | x :: text, _ => exact fun hhead => (hspells.start hps.plain rfl).2.2 (Option.some.inj hhead)
    | [], name :: classes => simp [ending_cons]
    | [], [] =>
      rw [hne rfl rfl rfl]
      cases hyphen <;> simp [ending]

end

theorem pieces_eq_intervals (h : set.hasBracket = false) : set.pieces = set.intervals := by
  have hnone : ∀ p ∈ set.intervals, ¬ (p.1 ≤ bracketCode ∧ bracketCode ≤ p.2) := by
    simpa [CharSet.hasBracket] using h
  have hall : set.intervals.flatMap withoutBracket = set.intervals.flatMap fun p => [p] :=
    List.flatMap_congr fun p hp => if_neg (hnone p hp)
  rw [CharSet.pieces, hall, List.flatMap_singleton']

/-- A set without pieces and classes of any length consists of a caret, a hyphen, or both. -/
theorem intervals_of_empty (hspells : SpellsAll (set.pieces.map trimStart) [] spans)
    (h : Apart set.intervals) (hbracket : set.hasBracket = false) :
    ∀ p ∈ set.intervals, p = (hyphenCode, hyphenCode) ∨ p = (caretCode, caretCode) := by
  intro p hp
  have hmem : p ∈ set.pieces := pieces_eq_intervals hbracket ▸ hp
  exact trimStart_empty (h.nonempty p hp) (hspells.empty _ (List.mem_map_of_mem hmem))

/-- The set as a whole is read as its elements, from the bracket to the ending. -/
theorem lists_whole (hspells : SpellsAll (set.pieces.map trimStart) middle spans)
    (h : Apart set.intervals) (hknown : ∀ name ∈ set.classes, name ∈ charClasses)
    (hclear : ¬ set.StrayHyphen) (hne : set.intervals ≠ [] ∨ set.classes ≠ []) :
    Lists true ((if set.hasBracket then [']'] else []) ++ (middle ++ set.ending))
      (set.elements spans) := by
  refine lists_body hspells (pieces_writable hclear h) hknown (fun hmem => ?_) ?_
  · obtain ⟨p, hp, heq⟩ := List.mem_map.mp hmem
    obtain rfl := trimStart_eq_comma heq
    exact ending_of_last h hclear hp
  · rintro hbracket rfl hclasses hcaret
    obtain ⟨p, more, hintervals⟩ := List.exists_cons_of_ne_nil (hne.resolve_right (absurd hclasses))
    have hp : p ∈ set.intervals := hintervals ▸ List.mem_cons_self
    rw [startsAt_iff, pieces_eq_intervals hbracket]
    rw [Bool.eq_false_iff, ne_eq, startsAt_iff, pieces_eq_intervals hbracket] at hcaret
    obtain rfl | rfl := intervals_of_empty hspells h hbracket p hp
    · exact ⟨_, hp, rfl⟩
    · exact absurd ⟨_, hp, rfl⟩ hcaret

/-- A set does not begin with a caret that would negate it. -/
theorem whole_head (hspells : SpellsAll (set.pieces.map trimStart) middle spans)
    (h : Apart set.intervals) (hclear : ¬ set.StrayHyphen)
    (hlarge : set.hasBracket = false → middle = [] → set.classes ≠ []) :
    ((if set.hasBracket then [']'] else []) ++ (middle ++ set.ending)).head? ≠ some '^' :=
  body_head hspells (pieces_writable hclear h) fun hbracket hmiddle hclasses =>
    absurd hclasses (hlarge hbracket hmiddle)

/-- A set is written piece by piece; a caret, alone or with a hyphen, is written in a way of its
own. -/
theorem bracketText_cases {negated : Bool} {text : List Char}
    (h : set.bracketText negated = .ok text) :
    ∃ middle spans, SpellsAll (set.pieces.map trimStart) middle spans ∧ text =
      if !set.hasBracket && middle.isEmpty && set.classes.isEmpty && !negated then
        if set.startsAt hyphenCode then "[-^]".toList else "\\^".toList
      else '[' :: ((if negated then ['^'] else []) ++
        ((if set.hasBracket then [']'] else []) ++ (middle ++ set.ending))) := by
  obtain ⟨texts, htexts, h⟩ := except_bind_eq_ok.mp h
  obtain ⟨spans, hspans⟩ := spellsAll_of_mapM (fun _ _ _ => intervalText_spells) htexts
  refine ⟨_, spans, hspans, ?_⟩
  have hempty : ((if set.hasBracket then [']'] else []) ++ texts.flatten
      ++ set.classes.flatMap classText).isEmpty
      = (!set.hasBracket && texts.flatten.isEmpty && set.classes.isEmpty) := by
    cases set.hasBracket <;> cases set.classes <;> simp [classText]
  change (if ((((if set.hasBracket then [']'] else []) ++ texts.flatten
    ++ set.classes.flatMap classText).isEmpty && !negated) = true) then
    pure (if (if set.startsAt hyphenCode then ['-'] else []).isEmpty then _ else _)
    else pure ('[' :: (if negated then ['^'] else []) ++
      ((if set.hasBracket then [']'] else []) ++ texts.flatten ++ set.classes.flatMap classText) ++
      (if set.startsAt caretCode then ['^'] else []) ++
      (if set.startsAt hyphenCode then ['-'] else []) ++ [']'])) = _ at h
  rw [hempty] at h
  split at h
  · rename_i hsmall
    cases h
    rw [if_pos hsmall]
    cases set.startsAt hyphenCode <;> rfl
  · rename_i hlarge
    cases h
    rw [if_neg hlarge]
    simp only [CharSet.ending, Rx.ending, List.append_assoc, List.cons_append]

end

/-! ### Codes -/

section
variable {p : Int × Int} {set : CharSet}

theorem withoutBracket_codes {q : Int × Int} (hp : IsCode p.1 ∧ IsCode p.2)
    (h : q ∈ withoutBracket p) : IsCode q.1 ∧ IsCode q.2 := by
  obtain ⟨_, rfl⟩ | ⟨_, _, rfl | rfl⟩ := mem_withoutBracket.mp h
  · exact hp
  · exact ⟨hp.1, '\\', rfl⟩
  · exact ⟨⟨'^', rfl⟩, hp.2⟩

theorem trimStart_codes (hp : IsCode p.1 ∧ IsCode p.2) :
    IsCode (trimStart p).1 ∧ IsCode (trimStart p).2 := by
  obtain ⟨-, heq⟩ | ⟨-, heq⟩ | ⟨-, -, heq⟩ := trimStart_eq p
  · exact heq ▸ ⟨⟨'.', rfl⟩, hp.2⟩
  · exact heq ▸ ⟨⟨'_', rfl⟩, hp.2⟩
  · exact heq.symm ▸ hp

theorem CharSet.Proper.trimmed_codes (h : set.Proper) :
    ∀ p ∈ set.pieces.map trimStart, IsCode p.1 ∧ IsCode p.2 := by
  refine List.forall_mem_map.mpr fun q hq => ?_
  obtain ⟨p, hp, hq⟩ := List.mem_flatMap.mp hq
  exact trimStart_codes (withoutBracket_codes (h.codes p hp) hq)

end

end PatternLint.Rx
