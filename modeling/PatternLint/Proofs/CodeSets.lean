import PatternLint.Primitive.Text
import PatternLint.Proofs.MergedIntervals
import PatternLint.Proofs.WrittenSets

/-! Sets that are written for codes of characters. The linter finds spans between the brackets that
do not meet, and that hold the characters of the codes and no others. -/

namespace PatternLint.Rx

open Pattern (Span charset charsOf runs runText isSetSpecial ascending)
open Pattern.Regexp

variable {may : Issue → Prop} {codes : List Int} {cs text middle : List Char} {spans : List Span}
  {n : Int}

/-! ### Runs -/

theorem runText_spells {p : Int × Int} (hle : p.1 ≤ p.2) (h : runText p = .ok text) :
    ∃ spans, Spells p text spans := by
  obtain ⟨lo, hi⟩ := p
  simp only at hle
  unfold runText at h
  dsimp only at h
  split at h
  · obtain ⟨a, ha, h⟩ := except_bind_eq_ok.mp h
    obtain ⟨b, hb, h⟩ := except_bind_eq_ok.mp h
    cases h
    exact ⟨_, .range (by omega) ha hb⟩
  split at h
  · rename_i heq
    obtain ⟨a, ha, h⟩ := except_bind_eq_ok.mp h
    cases h
    subst heq
    exact ⟨_, .single ha⟩
  · obtain ⟨a, ha, h⟩ := except_bind_eq_ok.mp h
    obtain ⟨b, hb, h⟩ := except_bind_eq_ok.mp h
    cases h
    obtain rfl : hi = lo + 1 := by omega
    exact ⟨_, .pair ha hb⟩

theorem runText_ok {p : Int × Int} (hcodes : IsCode p.1 ∧ IsCode p.2) :
    ∃ text, runText p = .ok text := by
  obtain ⟨a, ha, -⟩ := charOf_ok hcodes.1
  obtain ⟨b, hb, -⟩ := charOf_ok hcodes.2
  simp only [runText, ha, hb]
  split
  · exact ⟨_, rfl⟩
  split <;> exact ⟨_, rfl⟩

theorem isSetSpecial_iff :
    isSetSpecial n = true ↔ n = bracketCode ∨ n = caretCode ∨ n = hyphenCode := by
  simp only [isSetSpecial, Pattern.setSpecials, List.any_cons, List.any_nil, Bool.or_false,
    Bool.or_eq_true, beq_iff_eq]
  rfl

theorem not_special (h : isSetSpecial n = false) :
    n ≠ hyphenCode ∧ n ≠ bracketCode ∧ n ≠ caretCode := by
  rw [← Bool.not_eq_true, isSetSpecial_iff, not_or, not_or] at h
  exact ⟨h.2.2, h.1, h.2.1⟩

theorem runs_ends (h : codes.Pairwise (· < ·)) {p : Int × Int} (hp : p ∈ runs codes) :
    p.1 ∈ codes ∧ p.2 ∈ codes := by
  have hle := runs_nonempty h p hp
  exact ⟨(covers_runs h).mp ⟨p, hp, Int.le_refl _, hle⟩,
    (covers_runs h).mp ⟨p, hp, hle, Int.le_refl _⟩⟩

theorem runs_writable (h : codes.Pairwise (· < ·)) (hplain : ∀ n ∈ codes, isSetSpecial n = false) :
    Writable (runs codes) := by
  refine ⟨runs_ascending h, fun p hp _ => ?_, ?_⟩
  · obtain ⟨hlo, hhi⟩ := runs_ends h hp
    obtain ⟨hhyphen, hbracket, hcaret⟩ := not_special (hplain _ hlo)
    exact ⟨hhyphen, hbracket, hcaret, (not_special (hplain _ hhi)).2.1⟩
  · refine List.Pairwise.imp_of_mem ?_ (runs_ascending h)
    rintro p q hp - - rfl
    exact (not_special (hplain _ (runs_ends h hp).2)).1 rfl

/-- The part of a set that is written as runs. -/
def plainCodes (codes : List Int) : List Int :=
  codes.filter fun n => !isSetSpecial n

theorem mem_plainCodes : n ∈ plainCodes codes ↔ n ∈ codes ∧ isSetSpecial n = false := by
  simp [plainCodes]

/-! ### Sets -/

/-- What follows the opening bracket of a set that is not negated and holds the characters of these
codes. -/
structure SetOf (codes : List Int) (cs : List Char) (spans : List Span) : Prop where
  lists : Lists true cs (spans.map .span)
  head : cs.head? ≠ some '^'
  tidy : Tidy spans
  covers : ∀ c : Char, (∃ s ∈ spans, s.lo ≤ c ∧ c ≤ s.hi) ↔ (c.toNat : Int) ∈ codes

namespace SetOf

theorem oneToken (h : SetOf codes cs spans) : OneToken may .item ('[' :: cs) := by
  have hspans : spansOf (spans.map .span) = spans := by
    rw [spansOf, List.filterMap_map]
    exact List.filterMap_some
  exact oneToken_set h.lists false (fun _ => h.head) (.inl (hspans.symm ▸ h.tidy))

theorem tokens_eq (h : SetOf codes cs spans) : tokens ('[' :: cs) = .ok [⟨'[' :: cs, 0⟩] := by
  have htoken : OneToken (fun _ => True) .item ('[' :: cs) := h.oneToken
  obtain ⟨t, hgoes, -⟩ := htoken.goes .initial []
  exact hgoes.runs.tokens_eq hgoes.groups

theorem reading_eq (h : SetOf codes cs spans) :
    reading? ('[' :: cs) = some (.set false (spans.map .span)) := by
  have hlists := h.lists []
  rw [List.append_nil] at hlists
  obtain ⟨x, cs, rfl⟩ := List.exists_cons_of_ne_nil h.lists.ne_nil
  have hx : x ≠ '^' := fun heq => h.head (heq ▸ rfl)
  simp [reading?, caretLength, hx, hlists]

end SetOf

theorem lone_eq (c : Char) (here : Bool) : lone c here = (loneSpan c here).map .span := by
  cases here <;> rfl

theorem holds_loneSpan {c x : Char} {here : Bool} :
    (∃ s ∈ loneSpan c here, s.lo ≤ x ∧ x ≤ s.hi) ↔ here = true ∧ x = c := by
  cases here with
  | true =>
    simp only [loneSpan, if_true, List.mem_singleton, exists_eq_left, Span.single, true_and]
    exact ⟨fun hx => Char.le_antisymm hx.2 hx.1, fun hx => hx ▸ ⟨Char.le_refl _, Char.le_refl _⟩⟩
  | false => simp [loneSpan]

/-- Several characters in a set, where the flags tell which of those are there that
mean something in a set. -/
theorem setOf_body (hcodes : codes.Pairwise (· < ·)) (hchars : ∀ n ∈ codes, IsCode n)
    (hspells : SpellsAll (runs (plainCodes codes)) middle spans) {bracket caret hyphen : Bool}
    (hbracket : bracket = true ↔ bracketCode ∈ codes) (hcaret : caret = true ↔ caretCode ∈ codes)
    (hhyphen : hyphen = true ↔ hyphenCode ∈ codes)
    (hhead : ((if bracket then [']'] else []) ++
      (middle ++ ending [] caret hyphen)).head? ≠ some '^')
    (hne : bracket = false → middle = [] → caret = false → hyphen = true) :
    SetOf codes ((if bracket then [']'] else []) ++ (middle ++ ending [] caret hyphen))
      (loneSpan ']' bracket ++ (spans ++ (loneSpan '^' caret ++ loneSpan '-' hyphen))) := by
  have hsorted : (plainCodes codes).Pairwise (· < ·) := hcodes.filter _
  have hplain : ∀ n ∈ plainCodes codes, isSetSpecial n = false := fun n hn =>
    (mem_plainCodes.mp hn).2
  have hends : ∀ p ∈ runs (plainCodes codes), IsCode p.1 ∧ IsCode p.2 := fun p hp => by
    obtain ⟨hlo, hhi⟩ := runs_ends hsorted hp
    exact ⟨hchars _ (mem_plainCodes.mp hlo).1, hchars _ (mem_plainCodes.mp hhi).1⟩
  have horderly := hspells.orderly hends (runs_ascending hsorted)
  have hwithin (c : Char) : (∃ s ∈ spans, s.lo ≤ c ∧ c ≤ s.hi) ↔
      (c.toNat : Int) ∈ codes ∧ isSetSpecial c.toNat = false := by
    rw [hspells.within hends, covers_runs hsorted, mem_plainCodes]
  have hout {c : Char} (hc : isSetSpecial c.toNat = true) :=
    lone_apart hspells hends (c := c) fun hcovers => by
      have := hplain _ ((covers_runs hsorted).mp hcovers)
      rw [hc] at this
      cases this
  have hwritable := runs_writable hsorted hplain
  refine ⟨?lists, hhead, ?tidy, fun c => ?covers⟩
  case lists =>
    have hknown : ∀ name ∈ ([] : List String), name ∈ Pattern.charClasses := nofun
    have hlists := lists_body hspells hwritable hknown
      (fun hmem => absurd rfl (not_special (hplain _ (runs_ends hsorted hmem).2)).1)
      fun hbracket hmiddle _ => hne hbracket hmiddle
    simpa [lone_eq] using hlists
  case tidy =>
    exact tidy_body ⟨horderly.le, horderly.not_meets⟩ (fun _ => hout (by decide))
      (fun _ => hout (by decide)) (fun _ => hout (by decide))
  case covers =>
    have hcode (x : Char) : c = x ↔ (c.toNat : Int) = x.toNat := toNat_inj.symm
    simp only [List.mem_append, or_and_right, exists_or, holds_loneSpan, hwithin, hcode]
    constructor
    · rintro (⟨hflag, heq⟩ | ⟨hmem, -⟩ | ⟨hflag, heq⟩ | ⟨hflag, heq⟩)
      · exact heq ▸ hbracket.mp hflag
      · exact hmem
      · exact heq ▸ hcaret.mp hflag
      · exact heq ▸ hhyphen.mp hflag
    · intro hmem
      by_cases hspecial : isSetSpecial c.toNat = true
      · obtain heq | heq | heq := isSetSpecial_iff.mp hspecial
        · exact .inl ⟨hbracket.mpr (heq ▸ hmem), heq⟩
        · exact .inr (.inr (.inl ⟨hcaret.mpr (heq ▸ hmem), heq⟩))
        · exact .inr (.inr (.inr ⟨hhyphen.mpr (heq ▸ hmem), heq⟩))
      · exact .inr (.inl ⟨hmem, by simpa using hspecial⟩)

/-- Without a run there is nothing but special characters. -/
theorem special_of_empty (hcodes : codes.Pairwise (· < ·))
    (hspells : SpellsAll (runs (plainCodes codes)) [] spans) (hn : n ∈ codes) :
    n = bracketCode ∨ n = caretCode ∨ n = hyphenCode := by
  have hsorted : (plainCodes codes).Pairwise (· < ·) := hcodes.filter _
  by_contra hno
  rw [← isSetSpecial_iff, Bool.not_eq_true] at hno
  obtain ⟨p, hp, -⟩ := (covers_runs hsorted).mpr (mem_plainCodes.mpr ⟨hn, hno⟩)
  have := hspells.empty p hp
  have := runs_nonempty hsorted p hp
  omega

/-- Of two codes or more, a caret is not the only one. -/
theorem not_only_caret {a b : Int} {more : List Int} (hcodes : (a :: b :: more).Pairwise (· < ·)) :
    ¬ ∀ n ∈ a :: b :: more, n = caretCode := by
  intro hall
  have hlt := (List.pairwise_cons.mp hcodes).1 b List.mem_cons_self
  rw [hall a List.mem_cons_self, hall b (by simp)] at hlt
  exact Int.lt_irrefl _ hlt

/-- A caret and a hyphen alone stand in reverse. -/
theorem setOf_hyphenCaret (hhyphen : hyphenCode ∈ codes) (hcaret : caretCode ∈ codes)
    (hall : ∀ n ∈ codes, n = caretCode ∨ n = hyphenCode) :
    SetOf codes "-^]".toList [.single '-', .single '^'] := by
  refine ⟨lists_hyphenCaret, by simp, tidy_hyphenCaret, fun c => ?_⟩
  have hcode (x : Char) : c = x ↔ (c.toNat : Int) = x.toNat := toNat_inj.symm
  have hlone : (∃ s ∈ loneSpan '-' true ++ loneSpan '^' true, s.lo ≤ c ∧ c ≤ s.hi) ↔
      (c.toNat : Int) = hyphenCode ∨ (c.toNat : Int) = caretCode := by
    simp only [List.mem_append, or_and_right, exists_or, holds_loneSpan, true_and, hcode]
    rfl
  refine hlone.trans ⟨?_, fun hmem => (hall _ hmem).symm⟩
  rintro (heq | heq)
  · exact heq ▸ hhyphen
  · exact heq ▸ hcaret

/-- What `charset` writes between the brackets, for flags that say which of the characters that mean
something in a set are there. -/
theorem setOf_codes {a b : Int} {more : List Int} (hcodes : codes.Pairwise (· < ·))
    (hchars : ∀ n ∈ codes, IsCode n) (hmany : codes = a :: b :: more)
    (hspells : SpellsAll (runs (plainCodes codes)) middle spans) {body : List Char}
    {bracket caret hyphen : Bool} (hbracket : bracket = true ↔ bracketCode ∈ codes)
    (hcaret : caret = true ↔ caretCode ∈ codes) (hhyphen : hyphen = true ↔ hyphenCode ∈ codes)
    (hbody : body = (if bracket then [']'] else []) ++ middle ++ (if caret then ['^'] else []) ++
      (if hyphen then ['-'] else [])) :
    ∃ spans,
      SetOf codes ((if body.head? = some '^' then body.reverse else body) ++ [']']) spans := by
  have hclose : body ++ [']'] = (if bracket then [']'] else []) ++
      (middle ++ ending [] caret hyphen) := by
    simp [hbody, ending]
  have hwritable := runs_writable (hcodes.filter fun n => !isSetSpecial n) fun n hn =>
    (mem_plainCodes.mp hn).2
  by_cases hhead : body.head? = some '^'
  · -- Nothing but a caret can be first, so a hyphen is there as well.
    rw [if_pos hhead]
    have hfirst : (body ++ [']']).head? = some '^' := by simp [List.head?_append, hhead]
    have honly : bracket = false ∧ middle = [] ∧ caret = true := by
      by_contra hno
      refine absurd (hclose ▸ hfirst) (body_head hspells hwritable fun hb hm _ => ?_)
      simpa [hb, hm] using hno
    obtain ⟨rfl, rfl, rfl⟩ := honly
    have hspecial : ∀ n ∈ codes, n = caretCode ∨ n = hyphenCode := fun n hn =>
      (special_of_empty hcodes hspells hn).resolve_left fun heq => by
        cases hbracket.mpr (heq ▸ hn)
    cases hyphen with
    | true =>
      subst hbody
      exact ⟨_, setOf_hyphenCaret (hhyphen.mp rfl) (hcaret.mp rfl) hspecial⟩
    | false =>
      refine absurd (fun n hn => ?_) (not_only_caret (hmany ▸ hcodes))
      rw [← hmany] at hn
      exact (hspecial n hn).resolve_right fun heq => by cases hhyphen.mpr (heq ▸ hn)
  · rw [if_neg hhead, hclose]
    refine ⟨_, setOf_body hcodes hchars hspells hbracket hcaret hhyphen ?_ ?_⟩
    · rw [← hclose]
      cases body with
      | nil => simp
      | cons => simpa using hhead
    · rintro rfl rfl rfl
      have ha : a ∈ codes := hmany ▸ List.mem_cons_self
      obtain heq | heq | heq := special_of_empty hcodes hspells ha
      · cases hbracket.mpr (heq ▸ ha)
      · cases hcaret.mpr (heq ▸ ha)
      · exact hhyphen.mpr (heq ▸ ha)

/-- The set of several characters is written, and holds just these. -/
theorem charset_setOf {a b : Int} {more : List Int} (hchars : ∀ n ∈ codes, IsCode n)
    (hmany : ascending codes = a :: b :: more) :
    ∃ cs spans, charset codes = .ok ('[' :: cs) ∧ SetOf codes cs spans := by
  obtain ⟨hsorted, hmem⟩ := ascending_spec codes
  have hchars : ∀ n ∈ ascending codes, IsCode n := fun n hn => hchars n ((hmem n).mp hn)
  have hplain : (plainCodes (ascending codes)).Pairwise (· < ·) := hsorted.filter _
  obtain ⟨_, hall⟩ := mapM_ok fun n hn =>
    let ⟨c, hc, _⟩ := charOf_ok (hchars n hn)
    ⟨c, hc⟩
  have hruns : ∀ p ∈ runs (plainCodes (ascending codes)), ∃ text, runText p = .ok text :=
    fun p hp => by
    obtain ⟨hlo, hhi⟩ := runs_ends hplain hp
    exact runText_ok ⟨hchars _ (mem_plainCodes.mp hlo).1, hchars _ (mem_plainCodes.mp hhi).1⟩
  obtain ⟨texts, htexts⟩ := mapM_ok hruns
  obtain ⟨spans, hspells⟩ := spellsAll_of_mapM (g := id)
    (fun p hp _ => runText_spells (runs_nonempty hplain p hp)) htexts
  rw [List.map_id] at hspells
  obtain ⟨spans, hset⟩ := setOf_codes hsorted hchars hmany hspells decide_eq_true_iff
    decide_eq_true_iff decide_eq_true_iff rfl
  refine ⟨_, spans, ?_, { hset with covers := fun c => (hset.covers c).trans (hmem _) }⟩
  unfold charset
  rw [hmany] at hall htexts ⊢
  refine except_bind_eq_ok.mpr ⟨_, hall, except_bind_eq_ok.mpr ⟨_, htexts, ?_⟩⟩
  simp only [decide_eq_true_eq]
  rfl

end PatternLint.Rx

namespace PatternLint.Primitive

open Pattern (Span)
open Pattern.Regexp
open Rx (IsCode)

variable {chars : Value} {codes : List Int}

theorem charset_of_codes {cs : List Char} (hseq : chars.asSequence = .ok (codes.map .int))
    (h : Pattern.charset codes = .ok cs) : charset chars = .ok (.str (String.ofList cs)) := by
  simp only [charset, hseq, bind, Except.bind, Value.mapM_asInt, h]
  rfl

/-- The regexp for several characters is a single set, not negated, whose spans do not meet and hold
just these characters. -/
theorem charset_holds (hseq : chars.asSequence = .ok (codes.map .int))
    (hcodes : ∀ n ∈ codes, IsCode n) (hmany : ∃ a ∈ codes, ∃ b ∈ codes, a ≠ b) :
    ∃ text spans, charset chars = .ok (.str text) ∧
      tokens text.toList = .ok [⟨text.toList, 0⟩] ∧
      reading? text.toList = some (.set false (spans.map .span)) ∧ Tidy spans ∧
      ∀ c : Char, (∃ s ∈ spans, s.lo ≤ c ∧ c ≤ s.hi) ↔ (c.toNat : Int) ∈ codes := by
  obtain ⟨a, ha, b, hb, hne⟩ := hmany
  obtain ⟨n, m, rest, hseveral⟩ := Rx.ascending_several ha hb hne
  obtain ⟨cs, spans, hcharset, hset⟩ := Rx.charset_setOf hcodes hseveral
  refine ⟨String.ofList ('[' :: cs), spans, charset_of_codes hseq hcharset, ?_, ?_, hset.tidy,
    hset.covers⟩
  · rw [String.toList_ofList]
    exact hset.tokens_eq
  · rw [String.toList_ofList]
    exact hset.reading_eq

/-- Brackets, a colon, a caret and a hyphen among letters, in disorder and some of them twice. -/
def mixedCodes : List Int :=
  "]^-[:abcad,]".toList.map fun c => (c.toNat : Int)

theorem mixed_held : ∃ spans : List Span,
    charset (.vec (mixedCodes.map .int)) = .ok (.str "[],:[a-d^-]") ∧
      tokens "[],:[a-d^-]".toList = .ok [⟨"[],:[a-d^-]".toList, 0⟩] ∧
      reading? "[],:[a-d^-]".toList = some (.set false (spans.map .span)) ∧ Tidy spans ∧
      ∀ c : Char, (∃ s ∈ spans, s.lo ≤ c ∧ c ≤ s.hi) ↔ (c.toNat : Int) ∈ mixedCodes := by
  have hcodes : ∀ n ∈ mixedCodes, IsCode n := List.forall_mem_map.mpr fun c _ => ⟨c, rfl⟩
  have hread : (Value.vec (mixedCodes.map .int)).asSequence = .ok (mixedCodes.map .int) := rfl
  have hset : Pattern.charset mixedCodes = .ok "[],:[a-d^-]".toList := by
    rw [Pattern.charset, Rx.ascending_insertion]
    exact Rx.ok_of_toOption (by decide +kernel)
  have hwritten : charset (.vec (mixedCodes.map .int)) = .ok (.str "[],:[a-d^-]") :=
    charset_of_codes hread hset
  obtain ⟨text, spans, htext, hrest⟩ :=
    charset_holds hread hcodes ⟨93, by decide, 94, by decide, by decide⟩
  cases hwritten.symm.trans htext
  exact ⟨spans, hwritten, hrest⟩

end PatternLint.Primitive
