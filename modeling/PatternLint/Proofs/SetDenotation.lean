import PatternLint.Proofs.SetElements

/-! What the regexp of a set of characters matches. The elements that the linter finds between the
brackets match the characters of the set. -/

namespace PatternLint.Rx

open Pattern (Span charClasses)
open Pattern.Regexp (Element Tells Denotes)

section
variable {member : String → Char → Prop} {set : CharSet} {p : Int × Int} {ps : List (Int × Int)}
  {n : Int} {c : Char} {negated : Bool} {middle : List Char} {spans : List Span}

/-! ### The characters of the elements -/

theorem covers_withoutBracket :
    Covers (withoutBracket p) n ↔ (p.1 ≤ n ∧ n ≤ p.2) ∧ n ≠ bracketCode := by
  simp only [Covers, mem_withoutBracket]
  constructor
  · rintro ⟨q, ⟨hp, rfl⟩ | ⟨hp, hq, rfl | rfl⟩, hn⟩
    · exact ⟨hn, by rintro rfl; exact hp hn⟩
    · simp only at hn
      omega
    · simp only at hn
      omega
  · rintro ⟨hn, hne⟩
    by_cases hp : p.1 ≤ bracketCode ∧ bracketCode ≤ p.2
    · by_cases hlt : n < bracketCode
      · exact ⟨_, .inr ⟨hp, by simp only; omega, .inl rfl⟩, by simp only; omega⟩
      · exact ⟨_, .inr ⟨hp, by simp only; omega, .inr rfl⟩, by simp only; omega⟩
    · exact ⟨p, .inl ⟨hp, rfl⟩, hn⟩

theorem covers_pieces :
    Covers set.pieces n ↔ Covers set.intervals n ∧ n ≠ bracketCode := by
  obtain ⟨intervals, classes⟩ := set
  simp only [CharSet.pieces]
  induction intervals with
  | nil => simp
  | cons p intervals ih =>
    rw [List.flatMap_cons, covers_append, covers_cons, ih, covers_withoutBracket, or_and_right]

theorem covers_trimStart (h : ∀ p ∈ ps, p.1 ≤ p.2) :
    Covers ps n ↔ Covers (ps.map trimStart) n ∨ (n = caretCode ∧ ∃ p ∈ ps, p.1 = caretCode) ∨
      (n = hyphenCode ∧ ∃ p ∈ ps, p.1 = hyphenCode) := by
  induction ps with
  | nil => simp
  | cons p ps ih =>
    obtain ⟨hp, hps⟩ := List.forall_mem_cons.mp h
    rw [List.map_cons, covers_cons, covers_cons, ih hps]
    simp only [List.mem_cons, exists_eq_or_imp]
    obtain ⟨hstart, heq⟩ | ⟨hstart, heq⟩ | ⟨hhyphen, hcaret, heq⟩ := trimStart_eq p
    · rw [heq]
      simp only [hyphenCode, caretCode] at *
      grind
    · rw [heq]
      simp only [hyphenCode, caretCode] at *
      grind
    · simp [heq, hhyphen, hcaret, or_assoc]

theorem holds_iff (c : Char) : set.Holds member c ↔ (c = ']' ∧ set.hasBracket = true) ∨
    Covers set.pieces c.toNat ∨ ∃ name ∈ set.classes, member name c := by
  have hbracket : set.hasBracket = true ↔ Covers set.intervals bracketCode := by
    simp [CharSet.hasBracket, Covers]
  have hc : c = ']' ↔ (c.toNat : Int) = bracketCode := toNat_inj.symm
  rw [CharSet.Holds, covers_pieces, hbracket, hc]
  by_cases heq : (c.toNat : Int) = bracketCode
  · simp [heq]
  · simp [heq]

theorem exists_mem_lone {x : Char} {here : Bool} :
    (∃ e ∈ lone x here, e.Matches member c) ↔ c = x ∧ here = true := by
  cases here with
  | true =>
    have hx : x ≤ c ∧ c ≤ x ↔ c = x :=
      ⟨fun h => Char.le_antisymm h.2 h.1, fun h => h ▸ ⟨Char.le_refl _, Char.le_refl _⟩⟩
    simpa [lone, Element.Matches, Span.single] using hx
  | false => simp [lone]

/-- The elements of a set match its characters. -/
theorem elements_match (hspells : SpellsAll (set.pieces.map trimStart) middle spans)
    (h : set.Proper) (c : Char) :
    (∃ e ∈ set.elements spans, e.Matches member c) ↔ set.Holds member c := by
  have hspans : (∃ e ∈ spans.map Element.span, e.Matches member c)
      ↔ Covers (set.pieces.map trimStart) c.toNat := by
    simp [← hspells.within h.trimmed_codes, Element.Matches]
  have hnamed : (∃ e ∈ set.classes.map Element.named, e.Matches member c)
      ↔ ∃ name ∈ set.classes, member name c := by
    simp [Element.Matches]
  have hle : ∀ p ∈ set.pieces, p.1 ≤ p.2 := fun p hp => by
    obtain ⟨-, -, -, hle, -⟩ := pieces_within h.apart hp
    exact hle
  have hcaret : c = '^' ↔ (c.toNat : Int) = caretCode := toNat_inj.symm
  have hhyphen : c = '-' ↔ (c.toNat : Int) = hyphenCode := toNat_inj.symm
  simp only [CharSet.elements, List.mem_append, or_and_right, exists_or, exists_mem_lone, hspans,
    hnamed, holds_iff, covers_trimStart hle, startsAt_iff, hcaret, hhyphen]
  grind

/-! ### The bracket expression -/

theorem tells_whole (hspells : SpellsAll (set.pieces.map trimStart) middle spans) (h : set.Proper)
    (hclear : ¬ set.StrayHyphen) (hne : set.intervals ≠ [] ∨ set.classes ≠ []) :
    Tells member true ((if set.hasBracket then [']'] else []) ++ (middle ++ set.ending))
      (set.Holds member) :=
  ⟨_, lists_whole hspells h.apart h.known hclear hne, elements_match hspells h⟩

theorem bracketText_ok (h : set.Proper) (negated : Bool) :
    ∃ text, set.bracketText negated = .ok text := by
  have hall : ∀ p ∈ set.pieces, ∃ text, intervalText (trimStart p) = .ok text := fun p hp =>
    intervalText_ok (h.trimmed_codes _ (List.mem_map_of_mem hp))
  obtain ⟨texts, htexts⟩ := mapM_ok hall
  unfold CharSet.bracketText
  change ∃ text, (set.pieces.mapM (fun p => intervalText (trimStart p)) >>= _) = .ok text
  rw [htexts]
  exact ⟨_, (apply_ite Except.ok _ _ _).symm⟩

theorem hyphenCaret_denotes : Denotes member "[-^]".toList fun c => c = '-' ∨ c = '^' := by
  have hclose : After 0 [']'] := .of_cons (by decide) (by decide)
  have hcaret : Tells member false ['^', ']'] fun c => c = '^' ∨ False :=
    Tells.close.single (.inl (by decide)) (hclose.behind_of_ne (by decide))
  have hafter : After 0 ['^', ']'] := .of_cons (by decide) (by decide)
  have hboth : Tells member true ['-', '^', ']'] fun c => c = '-' ∨ c = '^' ∨ False :=
    hcaret.single (.inr rfl) (hafter.behind_of_ne (by decide))
  exact (hboth.set false fun _ => by decide).congr fun c => by simp

/-- A set of nothing but a caret and a hyphen that is not a single character holds both. -/
theorem hyphenCaret_of_empty (h : set.Proper) (hne : set.intervals ≠ [])
    (hempty : ∀ p ∈ set.intervals, p = (hyphenCode, hyphenCode) ∨ p = (caretCode, caretCode))
    (hsingle : ∀ n, set.intervals ≠ [(n, n)]) :
    (hyphenCode, hyphenCode) ∈ set.intervals ∧ (caretCode, caretCode) ∈ set.intervals := by
  obtain ⟨intervals, classes⟩ := set
  match intervals with
  | [] => exact absurd rfl hne
  | [p] => obtain rfl | rfl := hempty p List.mem_cons_self <;> exact absurd rfl (hsingle _)
  | p :: q :: more =>
    have hgap := (List.pairwise_cons.mp h.apart.gaps).1 q List.mem_cons_self
    have hp := hempty p List.mem_cons_self
    have hq := hempty q (List.mem_cons_of_mem _ List.mem_cons_self)
    simp only [hyphenCode, caretCode] at hp hq ⊢
    rcases hp with rfl | rfl <;> rcases hq with rfl | rfl <;> simp_all

/-- The bracket expression of a set that a character alone does not make. -/
theorem bracketText_denotes (member : String → Char → Prop) (h : set.Proper)
    (hclear : ¬ set.StrayHyphen) (negated : Bool) (hne : set.intervals ≠ [] ∨ set.classes ≠ [])
    (hsingle : negated = false → set.classes = [] → ∀ n, set.intervals ≠ [(n, n)]) :
    ∃ text, set.bracketText negated = .ok text ∧
      Denotes member text fun c => set.Holds member c ↔ negated = false := by
  obtain ⟨text, htext⟩ := bracketText_ok h negated
  obtain ⟨middle, spans, hspells, rfl⟩ := bracketText_cases htext
  refine ⟨_, htext, ?_⟩
  split
  · rename_i hsmall
    simp only [Bool.and_eq_true, Bool.not_eq_true', List.isEmpty_iff] at hsmall
    obtain ⟨⟨⟨hbracket, rfl⟩, hclasses⟩, hneg⟩ := hsmall
    have hempty := intervals_of_empty hspells h.apart hbracket
    have hne : set.intervals ≠ [] := hne.resolve_right (absurd hclasses)
    obtain ⟨hhyphen, hcaret⟩ := hyphenCaret_of_empty h hne hempty (hsingle hneg hclasses)
    have hstarts : set.startsAt hyphenCode = true :=
      startsAt_iff.mpr ⟨_, pieces_eq_intervals hbracket ▸ hhyphen, rfl⟩
    rw [if_pos hstarts]
    refine hyphenCaret_denotes.congr fun c => ?_
    rw [← toNat_inj (b := '-'), ← toNat_inj (b := '^')]
    simp only [CharSet.Holds, hclasses, hneg, List.not_mem_nil, false_and, exists_false, or_false,
      iff_true]
    constructor
    · rintro (hc | hc)
      · exact ⟨_, hhyphen, hc ▸ ⟨Int.le_refl _, Int.le_refl _⟩⟩
      · exact ⟨_, hcaret, hc ▸ ⟨Int.le_refl _, Int.le_refl _⟩⟩
    · rintro ⟨p, hp, hc⟩
      obtain rfl | rfl := hempty p hp
      · exact .inl (Int.le_antisymm hc.2 hc.1)
      · exact .inr (Int.le_antisymm hc.2 hc.1)
  · rename_i hlarge
    exact (tells_whole hspells h hclear hne).set negated fun hneg =>
      whole_head hspells h.apart hclear (by simpa [hneg] using hlarge)

theorem render_denotes_set (member : String → Char → Prop) (h : set.Proper)
    (hclear : ¬ set.StrayHyphen) (hne : set.intervals ≠ [] ∨ set.classes ≠ []) (negated : Bool) :
    ∃ item, set.render negated = .ok item ∧ item.precedence = .atom ∧
      Denotes member item.text fun c => set.Holds member c ↔ negated = false := by
  unfold CharSet.render
  split
  · rename_i hintervals hclasses
    exact absurd hne (by simp [hintervals, hclasses])
  · rename_i lo hi hintervals hclasses
    split
    · rename_i hsingle
      simp only [Bool.and_eq_true, Bool.not_eq_true', beq_iff_eq] at hsingle
      obtain ⟨rfl, rfl⟩ := hsingle
      obtain ⟨⟨c, hc⟩, _⟩ := h.codes (lo, lo) (by simp [hintervals])
      simp only at hc
      subst hc
      refine ⟨⟨Pattern.quoteChar c, .atom⟩, by rw [charOf_toNat]; rfl, rfl, ?_⟩
      refine (Pattern.Regexp.quoteChar_denotes c).congr fun x => ?_
      rw [← toNat_inj (b := c)]
      simp only [CharSet.Holds, hintervals, hclasses, covers_cons, covers_nil, List.not_mem_nil,
        false_and, exists_false, or_false, iff_true]
      omega
    · rename_i hsingle
      obtain ⟨text, htext, hdenotes⟩ :=
        bracketText_denotes member h hclear negated hne fun hneg _ n hn => hsingle (by
          rw [hintervals] at hn
          cases hn
          simp [hneg])
      exact ⟨⟨text, .atom⟩, by rw [htext]; rfl, rfl, hdenotes⟩
  · rename_i hsingle
    obtain ⟨text, htext, hdenotes⟩ := bracketText_denotes member h hclear negated hne
      fun _ hclasses n hn => hsingle n n hn hclasses
    exact ⟨⟨text, .atom⟩, by rw [htext]; rfl, rfl, hdenotes⟩

/-- The regexp of a set of characters is a single item that matches exactly the characters of the
given intervals and classes, or exactly the others, unless a comma and a hyphen of their own stand
before something else. -/
theorem render_denotes (member : String → Char → Prop) (hset : CharSet.ofArguments args = .ok set)
    (hcodes : ∀ v ∈ args, ∀ part, argument v = .ok part → ∀ p ∈ part.1, IsCode p.1 ∧ IsCode p.2)
    (hne : set.intervals ≠ [] ∨ set.classes ≠ []) (hclear : ¬ set.StrayHyphen)
    (negated : Bool) :
    ∃ item, set.render negated = .ok item ∧ item.precedence = .atom ∧
      Denotes member item.text fun c => (∃ v ∈ args, Names member v c) ↔ negated = false := by
  obtain ⟨item, hitem, hatom, hdenotes⟩ := render_denotes_set member
    (proper_ofArguments hset hcodes) hclear hne negated
  exact ⟨item, hitem, hatom, hdenotes.congr fun c => by rw [holds_ofArguments hset]⟩

/-- The arguments of `(any "]^-" digit)`: all characters that mean something in a set. -/
theorem specials_denoted :
    ∃ set item, CharSet.ofArguments [.str "]^-", .sym "digit"] = .ok set ∧
      set = ⟨[(45, 45), (93, 94)], ["digit"]⟩ ∧ ¬ set.StrayHyphen ∧
      set.render true = .ok item ∧
      Denotes (fun _ c => c.isDigit) item.text fun c =>
        (∃ v ∈ [Value.str "]^-", .sym "digit"], Names (fun _ c => c.isDigit) v c)
          ↔ true = false := by
  have hset : CharSet.ofArguments [.str "]^-", .sym "digit"]
      = .ok ⟨[(45, 45), (93, 94)], ["digit"]⟩ := by
    rw [ofArguments_insertion]
    exact ok_of_toOption (by decide +kernel)
  have hclear : ¬ CharSet.StrayHyphen ⟨[(45, 45), (93, 94)], ["digit"]⟩ := by decide
  obtain ⟨item, hitem, -, hdenotes⟩ := render_denotes (fun _ c => c.isDigit) hset (by
    intro v hv part hpart
    obtain rfl | rfl := by simpa using hv
    · exact argument_str_codes hpart
    · cases hpart
      simp) (by simp) hclear true
  exact ⟨_, item, hset, rfl, hclear, hitem, hdenotes⟩

/-- `(any "a,-")` becomes `[,-a]`, which is read as a range and matches a full stop. -/
theorem commaHyphen_misread : ∃ set item r,
    CharSet.ofArguments [.str "a,-"] = .ok set ∧ set.render false = .ok item ∧
      item.text = "[,-a]".toList ∧ Pattern.Regexp.reading? item.text = some r ∧
      r.Matches (fun _ _ => False) '.' ∧
      ¬ ∃ v ∈ [Value.str "a,-"], Names (fun _ _ => False) v '.' := by
  have hset : CharSet.ofArguments [.str "a,-"] = .ok ⟨[(44, 45), (97, 97)], []⟩ := by
    rw [ofArguments_insertion]
    exact ok_of_toOption (by decide +kernel)
  refine ⟨_, ⟨"[,-a]".toList, .atom⟩, .set false [.span ⟨',', 'a'⟩], hset,
    ok_of_toOption (by decide +kernel), rfl, by decide +kernel, ?_, ?_⟩
  · exact ⟨fun _ => rfl, fun _ =>
      ⟨_, List.mem_cons_self, (by decide : ',' ≤ '.' ∧ '.' ≤ 'a')⟩⟩
  · rw [← holds_ofArguments hset]
    rintro (h | ⟨name, hname, _⟩)
    · obtain ⟨p, hp, hc⟩ := h
      obtain rfl | rfl := by simpa using hp
      · exact absurd hc (by decide)
      · exact absurd hc (by decide)
    · cases hname

end

end PatternLint.Rx
