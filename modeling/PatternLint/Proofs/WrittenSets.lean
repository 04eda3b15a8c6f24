import PatternLint.Proofs.RegexpPhrases
import PatternLint.Proofs.SetElements
import PatternLint.Proofs.SetIssues

/-! The texts of one token that structured regexps are written with: characters, sets, and what a
backslash introduces. -/

namespace PatternLint.Rx

open Pattern.Regexp
open Pattern (quoteChar regexpSpecials)

variable {may : Issue → Prop} {c : Char} {text cs : List Char} {es : List Element}

/-- Sets and repetitions of nothing may be reported. -/
structure Lenient (may : Issue → Prop) : Prop where
  operator : ∀ c ∈ ['*', '+', '?'], may (.unescaped c)
  interval : may .repeatedNothing
  set : ∀ issue, may (.set issue)

theorem Lenient.repeatable (h : Lenient may) {operand : Operand}
    (hoperand : operand ≠ .repetition) : Repeatable may operand := by
  cases operand with
  | nothing => exact .inr ⟨rfl, h.operator, h.interval⟩
  | item => exact .inl rfl
  | repetition => exact absurd rfl hoperand

/-- A text over which the linter steps with another operand and nothing else. -/
theorem oneToken_of_step {more : List Char} {operand : Operand}
    (hstep : ∀ st before pos after,
      step st before pos c (more ++ after) = .ok (st.setOperand operand, more.length))
    (hhead : c ≠ '?') (hplain : c :: more ≠ ['\\', '|']) : OneToken may operand (c :: more) where
  goes s after := ⟨_, .token (hstep s.state s.before s.pos after) rfl (.of_eq rfl), rfl⟩
  ne_nil := List.cons_ne_nil _ _
  head := by simpa using hhead
  plain := hplain

theorem oneToken_quoteChar (may : Issue → Prop) (c : Char) : OneToken may .item (quoteChar c) := by
  unfold quoteChar
  split
  · rename_i h
    have hne : c ≠ '|' := by
      rintro rfl
      exact absurd h (by decide)
    refine oneToken_of_step (fun st before pos after => ?_) (by decide) (by simpa using hne)
    simp only [regexpSpecials, List.mem_cons, List.not_mem_nil, or_false] at h
    rcases h with rfl | rfl | rfl | rfl | rfl | rfl | rfl | rfl <;> rfl
  · rename_i h
    simp only [regexpSpecials, List.mem_cons, List.not_mem_nil, or_false, not_or] at h
    refine oneToken_of_step (fun st before pos after => ?_) h.2.2.2.2.1 (by simp)
    simp [step, h]

/-- A set between brackets, about which only this is reported. -/
theorem oneToken_lists (h : Lists true cs es) (negated : Bool)
    (hneg : negated = false → cs.head? ≠ some '^')
    (hreports : ∀ {origin start stop issues issues' after},
      setFrom origin start true #[] issues (cs ++ after) = .ok (issues', stop) →
        ∃ new, issues' = new ++ issues ∧ ∀ i ∈ new, may i.2) :
    OneToken may .item ('[' :: ((if negated then ['^'] else []) ++ cs)) where
  goes s after := by
    obtain ⟨issues, origin, start, stop, hset, hstep⟩ :=
      h.step negated hneg s.state s.before s.pos after
    exact ⟨_, .token hstep rfl (hreports hset), rfl⟩
  ne_nil := List.cons_ne_nil _ _
  head := by simp
  plain := by simp

theorem oneToken_set (h : Lists true cs es) (negated : Bool)
    (hneg : negated = false → cs.head? ≠ some '^')
    (hmay : Tidy (spansOf es) ∨ ∀ issue, may (.set issue)) :
    OneToken may .item ('[' :: ((if negated then ['^'] else []) ++ cs)) := by
  refine oneToken_lists h negated hneg fun {_ _ _ _ _ after} hset => ?_
  obtain htidy | hmay := hmay
  · exact ⟨[], setFrom_clean (h after) htidy (by simp) hset, nofun⟩
  · obtain ⟨new, hnew, hall⟩ := setFrom_reports (h after) hset
    refine ⟨new, hnew, fun i hi => ?_⟩
    obtain ⟨issue, hissue⟩ := hall i hi
    exact hissue ▸ hmay issue

/-! ### Escapes -/

/-- Texts that match no character, so that nothing is there to repeat. -/
def emptyMatches : List (List Char) :=
  ["\\`".toList, "\\'".toList, "\\=".toList, "\\<".toList, "\\>".toList, "\\b".toList, "\\B".toList,
    "\\_<".toList, "\\_>".toList]

theorem oneToken_emptyMatch (h : text ∈ emptyMatches) : OneToken may .nothing text := by
  simp only [emptyMatches, List.mem_cons, List.not_mem_nil, or_false] at h
  rcases h with rfl | rfl | rfl | rfl | rfl | rfl | rfl | rfl | rfl
  all_goals exact oneToken_of_step (fun _ _ _ _ => rfl) (by decide) (by decide)

theorem oneToken_class {name : String} (hname : name ∈ Pattern.charClasses) (negated : Bool) :
    OneToken may .item ('[' :: ((if negated then ['^'] else []) ++ (classText name ++ [']']))) := by
  have hlists : Lists true (classText name ++ [']']) [.named name] := Lists.close.named hname
  exact oneToken_set hlists negated (by simp [classText]) (.inl ⟨nofun, .nil⟩)

/-- What is reported about the regexp of all characters. -/
def allReversed : Issue :=
  .set (.reversed ⟨'z', 'a'⟩)

theorem oneToken_anyChar (hmay : may allReversed) : OneToken may .item anyChar := by
  have hlists : Lists true "z-a]".toList [.span ⟨'z', 'a'⟩] :=
    Lists.close.range (.inl (by decide)) (by decide)
  refine oneToken_lists hlists true nofun fun {_ start _ issues _ after} hset => ?_
  change setFrom _ _ true #[] issues ('z' :: '-' :: 'a' :: ']' :: after) = _ at hset
  rw [setFrom_cons (e := .span ⟨'z', 'a'⟩) (n := 2) rfl (.inl (by decide)), List.drop_succ_cons,
    List.drop_succ_cons, List.drop_zero, setFrom, if_pos (by decide)] at hset
  cases hset
  exact ⟨[(start, allReversed)], rfl, by simpa using hmay⟩

theorem oneToken_digit (hc : c ∈ ['1', '2', '3', '4', '5', '6', '7', '8', '9']) :
    OneToken may .item ['\\', c] := by
  simp only [List.mem_cons, List.not_mem_nil, or_false] at hc
  rcases hc with rfl | rfl | rfl | rfl | rfl | rfl | rfl | rfl | rfl
  all_goals exact oneToken_of_step (fun _ _ _ _ => rfl) (by decide) (by decide)

theorem oneToken_backReference {n : Nat} {digits : List Char} (hn : n ≠ 0) (hn' : n ≤ 9)
    (h : countText n = .ok digits) : OneToken may .item ('\\' :: digits) := by
  have hall : ∀ n ≤ 9, n ≠ 0 → (countText n).toOption = some [n.digitChar] ∧
      n.digitChar ∈ ['1', '2', '3', '4', '5', '6', '7', '8', '9'] := by decide +kernel
  obtain ⟨htext, hdigit⟩ := hall n hn' hn
  cases (ok_of_toOption htext).symm.trans h
  exact oneToken_digit hdigit

/-- A syntax class or its complement. -/
theorem oneToken_syntaxClass {letter : Char} (hletter : letter = 's' ∨ letter = 'S')
    (hc : c ∈ syntaxChars) : OneToken may .item ['\\', letter, c] := by
  refine oneToken_of_step (fun st before pos after => ?_) (by decide) (by simp)
  rcases hletter with rfl | rfl
  · simp [step, escapeStep, hc]
  · simp [step, escapeStep, hc]

theorem syntaxCode_mem {v : Value} {code : List Char} (h : syntaxCode v = .ok code) :
    ∃ c ∈ syntaxChars, code = [c] := by
  have hall : ∀ e ∈ syntaxCodes, (syntaxChars.any fun c => e.2.toList == [c]) = true := by
    decide +kernel
  unfold syntaxCode at h
  split at h
  · split at h
    · rename_i hlookup
      cases h
      obtain ⟨before, after, heq, -⟩ := List.lookup_eq_some_iff.mp hlookup
      obtain ⟨c, hc, htext⟩ :=
        List.any_eq_true.mp (hall _ (heq ▸ List.mem_append_right _ List.mem_cons_self))
      exact ⟨c, hc, eq_of_beq htext⟩
    · cases h
  · cases h

/-- A category or its complement. -/
theorem oneToken_category {letter : Char} (hletter : letter = 'c' ∨ letter = 'C') (c : Char) :
    OneToken may .item ['\\', letter, c] := by
  refine oneToken_of_step (fun st before pos after => ?_) (by decide) (by simp)
  rcases hletter with rfl | rfl
  · simp [step, escapeStep]
  · simp [step, escapeStep]

theorem categoryCode_length {v : Value} {code : List Char} (h : categoryCode v = .ok code) :
    ∃ c, code = [c] := by
  unfold categoryCode at h
  split at h
  · split at h
    · cases h
      exact ⟨_, rfl⟩
    · cases h
  · cases h

end PatternLint.Rx

/-! Written sets as phrases. Their elements do not meet when all codes are those of characters. -/

namespace PatternLint.Rx

open Pattern (Span quoteChar charOf)
open Pattern.Regexp

variable {may : Issue → Prop} {anchored : Prop} {set : CharSet} {negated : Bool} {item : Item}
  {text middle : List Char} {spans : List Span} {c : Char} {n : Int}

/-! ### Tidy sets -/

/-- The span of a character on its own. -/
def loneSpan (c : Char) (here : Bool) : List Span :=
  if here then [.single c] else []

theorem mem_loneSpan {here : Bool} {s : Span} (h : s ∈ loneSpan c here) :
    s = .single c ∧ here = true := by
  cases here with
  | true => exact ⟨List.mem_singleton.mp h, rfl⟩
  | false => cases h

theorem spansOf_body {bracket caret hyphen : Bool} {classes : List String} :
    spansOf (lone ']' bracket ++ (spans.map .span ++
      (classes.map .named ++ (lone '^' caret ++ lone '-' hyphen))))
      = loneSpan ']' bracket ++ (spans ++ (loneSpan '^' caret ++ loneSpan '-' hyphen)) := by
  have hlone (c : Char) (here : Bool) :
      (lone c here).filterMap Element.span? = loneSpan c here := by
    cases here <;> rfl
  have hspans : (spans.map Element.span).filterMap Element.span? = spans := by
    rw [List.filterMap_map]
    exact List.filterMap_some
  have hnamed : (classes.map Element.named).filterMap Element.span? = [] := by
    rw [List.filterMap_map]
    exact List.filterMap_eq_nil_iff.mpr fun _ _ => rfl
  simp only [spansOf, List.filterMap_append, hlone, hspans, hnamed,
    List.nil_append]

theorem covers_trimmed (h : Covers (set.pieces.map trimStart) n) :
    ∃ p ∈ set.pieces, p.1 ≤ n ∧ n ≤ p.2 ∧ (trimStart p).1 ≤ n := by
  obtain ⟨q, hq, hlo, hhi⟩ := h
  obtain ⟨p, hp, rfl⟩ := List.mem_map.mp hq
  obtain ⟨hle, heq⟩ := trimStart_within p
  exact ⟨p, hp, by omega, by omega, hlo⟩

theorem bracket_not_covered (h : Apart set.intervals) :
    ¬ Covers (set.pieces.map trimStart) bracketCode := by
  intro hcovers
  obtain ⟨p, hp, hlo, hhi, -⟩ := covers_trimmed hcovers
  obtain ⟨-, -, -, -, -, hout⟩ := pieces_within h hp
  exact hout ⟨hlo, hhi⟩

/-- The start of a piece that is written on its own is in no other piece. -/
theorem start_not_covered (h : Apart set.intervals) (hn : n = caretCode ∨ n = hyphenCode)
    (hstart : set.startsAt n = true) : ¬ Covers (set.pieces.map trimStart) n := by
  intro hcovers
  obtain ⟨p, hp, hlo, hhi, htrim⟩ := covers_trimmed hcovers
  obtain ⟨q, hq, rfl⟩ := startsAt_iff.mp hstart
  obtain ⟨-, -, -, hle, -, -⟩ := pieces_within h hq
  obtain rfl := pieces_eq_of_meet h hp hq (by omega) hhi
  obtain ⟨hat, heq⟩ | ⟨hat, heq⟩ | ⟨hhyphen, hcaret, -⟩ := trimStart_eq p
  · rw [heq, hat] at htrim
    exact absurd htrim (by decide : ¬ (46 : Int) ≤ hyphenCode)
  · rw [heq, hat] at htrim
    exact absurd htrim (by decide : ¬ (95 : Int) ≤ caretCode)
  · exact hn.elim hcaret hhyphen

/-- A character that the intervals leave out meets none of their spans. -/
theorem lone_apart {ps : List (Int × Int)} (hspells : SpellsAll ps middle spans)
    (hcodes : ∀ p ∈ ps, IsCode p.1 ∧ IsCode p.2) (hc : ¬ Covers ps c.toNat) :
    ∀ s ∈ spans, (Span.single c).meets s = false := by
  intro s hs
  rw [← hspells.within hcodes] at hc
  have hout : ¬ (s.lo ≤ c ∧ c ≤ s.hi) := fun hin => hc ⟨s, hs, hin⟩
  rw [and_comm, not_and_or, ← decide_eq_false_iff_not, ← decide_eq_false_iff_not] at hout
  exact Bool.and_eq_false_iff.mpr hout

theorem Orderly.not_meets (h : Orderly spans) : spans.Pairwise fun s t => s.meets t = false :=
  h.ascending.imp fun hlt =>
    Bool.and_eq_false_iff.mpr (.inr (decide_eq_false (Char.not_le.mpr hlt)))

theorem tidy_lone (c : Char) (here : Bool) : Tidy (loneSpan c here) := by
  cases here with
  | true => exact ⟨by simp [loneSpan, Span.single], List.pairwise_singleton _ _⟩
  | false => exact ⟨List.forall_mem_nil _, .nil⟩

theorem tidy_append {earlier later : List Span} (he : Tidy earlier) (hl : Tidy later)
    (h : ∀ s ∈ earlier, ∀ t ∈ later, s.meets t = false) : Tidy (earlier ++ later) :=
  ⟨List.forall_mem_append.mpr ⟨he.le, hl.le⟩, List.pairwise_append.mpr ⟨he.apart, hl.apart, h⟩⟩

/-- What is written on its own does not spoil spans that leave it out. -/
theorem tidy_body {bracket caret hyphen : Bool} (hspans : Tidy spans)
    (hbracket : bracket = true → ∀ s ∈ spans, (Span.single ']').meets s = false)
    (hcaret : caret = true → ∀ s ∈ spans, (Span.single '^').meets s = false)
    (hhyphen : hyphen = true → ∀ s ∈ spans, (Span.single '-').meets s = false) :
    Tidy (loneSpan ']' bracket ++ (spans ++ (loneSpan '^' caret ++ loneSpan '-' hyphen))) := by
  refine tidy_append (tidy_lone _ _) (tidy_append hspans
    (tidy_append (tidy_lone _ _) (tidy_lone _ _) ?_) ?_) ?_
  · intro s hs t ht
    obtain ⟨rfl, -⟩ := mem_loneSpan hs
    obtain ⟨rfl, -⟩ := mem_loneSpan ht
    rfl
  · intro s hs t ht
    rw [Span.meets_comm]
    obtain ht | ht := List.mem_append.mp ht
    · obtain ⟨rfl, hhere⟩ := mem_loneSpan ht
      exact hcaret hhere s hs
    · obtain ⟨rfl, hhere⟩ := mem_loneSpan ht
      exact hhyphen hhere s hs
  · intro s hs t ht
    obtain ⟨rfl, hhere⟩ := mem_loneSpan hs
    obtain ht | ht := List.mem_append.mp ht
    · exact hbracket hhere t ht
    obtain ht | ht := List.mem_append.mp ht
    · obtain ⟨rfl, -⟩ := mem_loneSpan ht
      rfl
    · obtain ⟨rfl, -⟩ := mem_loneSpan ht
      rfl

theorem tidy_elements (hspells : SpellsAll (set.pieces.map trimStart) middle spans)
    (h : set.Proper) : Tidy (spansOf (set.elements spans)) := by
  have horderly := hspells.orderly h.trimmed_codes (trimmed_ascending h.apart)
  have hout {c : Char} (hc : ¬ Covers (set.pieces.map trimStart) c.toNat) :=
    lone_apart hspells h.trimmed_codes hc
  rw [CharSet.elements, spansOf_body]
  exact tidy_body ⟨horderly.le, horderly.not_meets⟩
    (fun _ => hout (c := ']') (bracket_not_covered h.apart))
    (fun hstart => hout (c := '^') (start_not_covered h.apart (.inl rfl) hstart))
    (fun hstart => hout (c := '-') (start_not_covered h.apart (.inr rfl) hstart))

/-! ### Sets as phrases -/

/-- In this order a hyphen makes no range, and a caret does not negate. -/
theorem lists_hyphenCaret : Lists true "-^]".toList [.span (.single '-'), .span (.single '^')] := by
  have hcaret : Lists false ['^', ']'] [.span (.single '^')] :=
    Lists.close.single (.inl (by decide)) ⟨']', [], rfl, nofun, nofun⟩
  exact hcaret.single (.inr rfl) ⟨'^', _, rfl, nofun, nofun⟩

theorem tidy_hyphenCaret : Tidy [.single '-', .single '^'] :=
  tidy_append (tidy_lone '-' true) (tidy_lone '^' true) (by decide)

theorem oneToken_hyphenCaret : OneToken may .item "[-^]".toList :=
  oneToken_set lists_hyphenCaret false (by simp) (.inl tidy_hyphenCaret)

theorem oneToken_bracketText (h : set.bracketText negated = .ok text) (hset : Apart set.intervals)
    (hknown : ∀ name ∈ set.classes, name ∈ Pattern.charClasses) (hclear : ¬ set.StrayHyphen)
    (hne : set.intervals ≠ [] ∨ set.classes ≠ [])
    (hmay : set.Proper ∨ ∀ issue, may (.set issue)) : OneToken may .item text := by
  obtain ⟨middle, spans, hspells, rfl⟩ := bracketText_cases h
  split
  · split
    · exact oneToken_hyphenCaret
    · exact oneToken_quoteChar may '^'
  · rename_i hlarge
    refine oneToken_set (lists_whole hspells hset hknown hclear hne) negated (fun hneg => ?_)
      (hmay.imp_left fun h => tidy_elements hspells h)
    exact whole_head hspells hset hclear (by simpa [hneg] using hlarge)

theorem phrase_unmatchable : Phrase may anchored .seq false false unmatchable := by
  have hstart : Phrase may anchored .seq false false "\\`".toList :=
    .bare (oneToken_emptyMatch (by decide))
  have hchar : Phrase may anchored .seq false false ['a'] := .bare (oneToken_quoteChar may 'a')
  exact .append hstart (.append hchar hstart (by simp) (by simp) nofun nofun) (by simp) (by simp)
    nofun nofun

/-- The regexp of a set is a phrase. A set of nothing that is negated is
written as a reversed range. -/
theorem phrase_render (h : set.render negated = .ok item) (hset : Apart set.intervals)
    (hknown : ∀ name ∈ set.classes, name ∈ Pattern.charClasses) (hclear : ¬ set.StrayHyphen)
    (hall : negated = true → set = ⟨[], []⟩ → may allReversed)
    (hmay : set.Proper ∨ ∀ issue, may (.set issue)) :
    Phrase may anchored item.precedence false false item.text := by
  unfold CharSet.render at h
  have hatom {text : List Char} (htext : OneToken may .item text) :
      Phrase may anchored .atom false false text := .token htext (.inl rfl)
  split at h
  · rename_i hintervals hclasses
    cases negated with
    | true =>
      cases h
      refine hatom (oneToken_anyChar (hall rfl ?_))
      rw [← hintervals, ← hclasses]
    | false =>
      cases h
      exact phrase_unmatchable
  · rename_i lo hi hintervals hclasses
    split at h
    · obtain ⟨c, hc, h⟩ := except_bind_eq_ok.mp h
      cases h
      exact hatom (oneToken_quoteChar may c)
    · obtain ⟨text, htext, h⟩ := except_bind_eq_ok.mp h
      cases h
      exact hatom (oneToken_bracketText htext hset hknown hclear (.inl (by simp [hintervals]))
        hmay)
  · rename_i hne _
    obtain ⟨text, htext, h⟩ := except_bind_eq_ok.mp h
    cases h
    refine hatom (oneToken_bracketText htext hset hknown hclear ?_ hmay)
    rw [← not_and_or]
    rintro ⟨hintervals, hclasses⟩
    exact hne hintervals hclasses

end PatternLint.Rx
