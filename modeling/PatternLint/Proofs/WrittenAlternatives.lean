import PatternLint.Proofs.CodeSets

/-! Alternatives of strings as phrases: a set of their characters when each is a single
character, and a group around them otherwise. The linter has nothing to say about them,
nor about quoted text. -/

namespace PatternLint.Rx

open Pattern (quoteChar charset alternatives beforeInAlternatives Grouping)
open Pattern.Regexp

variable {may : Issue → Prop} {anchored : Prop} {text body : List Char}
  {texts ordered : List (List Char)}
  {whole keepOrder : Bool} {grouping : Grouping}

/-! ### The order of alternatives -/

theorem beforeInAlternatives_iff {a b : List Char} :
    beforeInAlternatives a b = true ↔
      b.length < a.length ∨ (a.length = b.length ∧ ¬ List.Lex (· < ·) b a) := by
  have hlt : (· < ·) = fun x y : Char => decide (x.toNat < y.toNat) = true :=
    funext₂ fun x y => decide_eq_true_eq.symm
  rw [hlt, ← List.lex_eq_false_iff_not_lex]
  simp [beforeInAlternatives]

instance : IsTrans (List Char) fun a b => beforeInAlternatives a b where
  trans a b c hab hbc := by
    rw [beforeInAlternatives_iff] at *
    obtain hab | ⟨hab, hle⟩ := hab
    · omega
    obtain hbc | ⟨hbc, hle'⟩ := hbc
    · omega
    · exact .inr ⟨hab.trans hbc, List.le_trans hle hle'⟩

instance : Std.Total fun a b : List Char => (beforeInAlternatives a b : Prop) where
  total a b := by
    rw [beforeInAlternatives_iff, beforeInAlternatives_iff]
    obtain hlt | heq | hlt := Nat.lt_trichotomy a.length b.length
    · exact .inr (.inl hlt)
    · exact (List.le_total a b).imp (fun hle => .inr ⟨heq, hle⟩) fun hle => .inr ⟨heq.symm, hle⟩
    · exact .inl (.inl hlt)

instance : Std.Antisymm fun a b : List Char => (beforeInAlternatives a b : Prop) where
  antisymm a b hab hba := by
    rw [beforeInAlternatives_iff] at *
    obtain hlt | ⟨heq, hle⟩ := hab
    · omega
    · exact List.le_antisymm hle (hba.resolve_left (by omega)).2

/-- Only one order is right for given texts, so that it is no matter how they are sorted. Sorting by
insertion can be evaluated. -/
theorem mergeSort_insertion (texts : List (List Char)) :
    texts.mergeSort beforeInAlternatives
      = texts.insertionSort fun a b => beforeInAlternatives a b := by
  rw [← List.mergeSort_eq_insertionSort]
  simp only [Bool.decide_eq_true]

/-- A longer text is never tried behind a shorter one. -/
theorem mergeSort_longest (texts : List (List Char)) :
    (texts.mergeSort beforeInAlternatives).Pairwise fun a b => b.length ≤ a.length := by
  rw [mergeSort_insertion]
  refine (List.pairwise_insertionSort _ texts).imp fun h => ?_
  rw [beforeInAlternatives_iff] at h
  omega

theorem nodup_eraseDups (texts : List (List Char)) : texts.eraseDups.Nodup := by
  match texts with
  | [] => exact .nil
  | t :: rest =>
    rw [List.eraseDups_cons, List.nodup_cons]
    exact ⟨by simp [List.mem_eraseDups], nodup_eraseDups _⟩
termination_by texts.length
decreasing_by
  have := List.length_filter_le (fun b => !b == t) rest
  rw [List.length_cons]
  omega

/-- The distinct texts in the order in which they are tried. -/
structure Arranged (texts : List (List Char)) (keepOrder : Bool) (ordered : List (List Char)) :
    Prop where
  mem : ∀ t, t ∈ ordered ↔ t ∈ texts
  nodup : ordered.Nodup
  longest : keepOrder = false → ordered.Pairwise fun a b => b.length ≤ a.length

theorem arranged (texts : List (List Char)) (keepOrder : Bool) :
    Arranged texts keepOrder
      (if keepOrder then texts.eraseDups else texts.eraseDups.mergeSort beforeInAlternatives) := by
  cases keepOrder with
  | true => exact ⟨fun t => List.mem_eraseDups, nodup_eraseDups texts, nofun⟩
  | false =>
    refine ⟨fun t => ?_, ?_, fun _ => mergeSort_longest _⟩
    · exact List.mem_mergeSort.trans List.mem_eraseDups
    · exact (List.mergeSort_perm _ _).nodup_iff.mpr (nodup_eraseDups texts)

/-! ### Alternatives as text -/

/-- How texts are written as alternatives, and whether they need no group to hold together. -/
inductive Alternates : List (List Char) → Bool → List Char → Prop
  | single (text : List Char) : Alternates [text] true (Pattern.quote text)
  | set {ordered : List (List Char)} {cs : List Char} {spans : List Pattern.Span}
      (h : SetOf (ordered.flatten.map fun c => (c.toNat : Int)) cs spans)
      (hall : ∀ t ∈ ordered, t.length = 1) : Alternates ordered true ('[' :: cs)
  | choice (a b : List Char) (more : List (List Char)) :
      Alternates (a :: b :: more) false (Pattern.alternation ((a :: b :: more).map Pattern.quote))

/-- Alternatives with what is written around them. -/
def enclosed (grouping : Grouping) (whole : Bool) (body : List Char) : List Char :=
  match grouping with
  | .word => "\\<\\(".toList ++ body ++ "\\)\\>".toList
  | .symbol => "\\_<\\(".toList ++ body ++ "\\)\\_>".toList
  | .capturing => "\\(".toList ++ body ++ "\\)".toList
  | .shy => if whole then body else "\\(?:".toList ++ body ++ "\\)".toList

/-- Several single characters are written as a set. -/
theorem charset_characters (hnodup : ordered.Nodup) (hlength : 1 < ordered.length)
    (hall : ∀ t ∈ ordered, t.length = 1) :
    ∃ cs spans, charset (ordered.flatten.map fun c => (c.toNat : Int)) = .ok ('[' :: cs) ∧
      SetOf (ordered.flatten.map fun c => (c.toNat : Int)) cs spans := by
  match ordered with
  | a :: b :: more =>
    obtain ⟨c, rfl⟩ := List.length_eq_one_iff.mp (hall a (by simp))
    obtain ⟨d, rfl⟩ := List.length_eq_one_iff.mp (hall b (by simp))
    have hne : c ≠ d := by
      rintro rfl
      simp at hnodup
    generalize hcodes : (([c] :: [d] :: more).flatten.map fun c => (c.toNat : Int)) = codes
    have hc : (c.toNat : Int) ∈ codes := by simp [← hcodes]
    have hd : (d.toNat : Int) ∈ codes := by simp [← hcodes]
    have hchars : ∀ n ∈ codes, IsCode n := hcodes ▸ List.forall_mem_map.mpr fun c _ => ⟨c, rfl⟩
    obtain ⟨n, m, rest, hseveral⟩ := ascending_several hc hd fun heq => hne (toNat_inj.mp heq)
    exact charset_setOf hchars hseveral

theorem alternation_singleton (text : List Char) : Pattern.alternation [text] = text := by
  simp [Pattern.alternation]

/-- Alternatives are always written. -/
theorem alternatives_cases (texts : List (List Char)) (grouping : Grouping) (keepOrder : Bool) :
    (texts = [] ∧ alternatives texts grouping keepOrder = .ok Pattern.unmatchable) ∨
    ∃ ordered whole body, Arranged texts keepOrder ordered ∧ Alternates ordered whole body ∧
      alternatives texts grouping keepOrder = .ok (enclosed grouping whole body) := by
  match texts with
  | [] => exact .inl ⟨rfl, rfl⟩
  | t :: rest =>
    have harranged := arranged (t :: rest) keepOrder
    have hempty : (t :: rest).eraseDups.isEmpty = false := by simp [List.eraseDups_cons]
    unfold alternatives
    simp only [hempty, Bool.false_eq_true, if_false]
    generalize (if keepOrder = true then (t :: rest).eraseDups
      else (t :: rest).eraseDups.mergeSort beforeInAlternatives) = ordered at harranged ⊢
    refine .inr ?_
    by_cases hset : (decide (ordered.length > 1) && ordered.all (·.length == 1)) = true
    · obtain ⟨hlength, hall⟩ := by simpa using hset
      obtain ⟨cs, spans, hcharset, hsetOf⟩ := charset_characters harranged.nodup hlength hall
      refine ⟨ordered, true, _, harranged, .set hsetOf hall, ?_⟩
      simp only [hset, if_true, hcharset]
      cases grouping <;> rfl
    · simp only [hset]
      match ordered with
      | [] => exact absurd ((harranged.mem t).mpr List.mem_cons_self) List.not_mem_nil
      | [text] =>
        refine ⟨_, true, _, harranged, .single text, ?_⟩
        rw [List.map_singleton, alternation_singleton]
        cases grouping <;> rfl
      | a :: b :: more =>
        refine ⟨_, false, _, harranged, .choice a b more, ?_⟩
        cases grouping <;> rfl

/-! ### Phrases -/

theorem quoteChar_ne_nil (c : Char) : quoteChar c ≠ [] :=
  (oneToken_quoteChar (fun _ => True) c).ne_nil

theorem phrase_quote (cs : List Char) :
    Phrase may anchored .seq false false (Pattern.quote cs) := by
  induction cs with
  | nil => exact .empty
  | cons c cs ih =>
    have hc : Phrase may anchored .seq false false (quoteChar c) := .bare (oneToken_quoteChar may c)
    cases cs with
    | nil => simpa [Pattern.quote] using hc
    | cons c' cs =>
      have hne : Pattern.quote (c' :: cs) ≠ [] := by
        simp [Pattern.quote, quoteChar_ne_nil c']
      exact .append hc ih (quoteChar_ne_nil c) hne (by simp) (by simp)

theorem phrase_literal (cs : List Char) :
    Phrase may anchored (literal cs).precedence false false (literal cs).text := by
  unfold literal
  split
  · rename_i hlength
    obtain ⟨c, rfl⟩ := List.length_eq_one_iff.mp hlength
    have hc : Phrase may anchored .atom false false (quoteChar c) :=
      .token (oneToken_quoteChar may c) (.inl rfl)
    simpa [Pattern.quote] using hc
  · exact phrase_quote cs

/-- Phrases joined by the operator of alternation. -/
theorem phrase_alternation {a b : List Char} {more : List (List Char)}
    (h : ∀ t ∈ a :: b :: more, ∃ p opens closes, Phrase may anchored p opens closes t) :
    ∃ opens closes,
      Phrase may anchored .alt opens closes (Pattern.alternation (a :: b :: more)) := by
  induction more generalizing a b with
  | nil =>
    obtain ⟨_, opens, _, ha⟩ := h a (by simp)
    obtain ⟨_, _, closes, hb⟩ := h b (by simp)
    refine ⟨opens, closes, ?_⟩
    simpa [Pattern.alternation] using ha.choice hb
  | cons c more ih =>
    obtain ⟨ha, hrest⟩ := List.forall_mem_cons.mp h
    obtain ⟨_, opens, _, ha⟩ := ha
    obtain ⟨_, closes, hrest⟩ := ih hrest
    refine ⟨opens, closes, ?_⟩
    simpa [Pattern.alternation] using ha.choice hrest

theorem phrase_group {p : Precedence} {opens closes : Bool}
    (h : Phrase may anchored p opens closes text) :
    Phrase may anchored .atom false false (bracketed text) := by
  unfold bracketed
  simpa using Phrase.group .shy h

/-- Alternatives that need no group are the text of a single one or a set. -/
theorem Alternates.phrase (h : Alternates ordered whole body) (may : Issue → Prop)
    (anchored : Prop) : ∃ p opens closes, Phrase may anchored p opens closes body ∧
      (whole = true → ordered.length ≠ 1 → p = .atom ∧ opens = false ∧ closes = false) := by
  cases h with
  | single text => exact ⟨_, _, _, phrase_quote text, fun _ hlength => absurd rfl hlength⟩
  | set h _ => exact ⟨_, _, _, .token h.oneToken (.inl rfl), fun _ _ => ⟨rfl, rfl, rfl⟩⟩
  | choice a b more =>
    have hparts : ∀ t ∈ (a :: b :: more).map Pattern.quote,
        ∃ p opens closes, Phrase may anchored p opens closes t :=
      List.forall_mem_map.mpr fun cs _ => ⟨_, _, _, phrase_quote cs⟩
    obtain ⟨opens, closes, hphrase⟩ := phrase_alternation hparts
    exact ⟨_, opens, closes, hphrase, nofun⟩

/-- A capturing group between two texts that match no character. -/
theorem phrase_bounded {p : Precedence} {opens closes : Bool} {start stop : List Char}
    (h : Phrase may anchored p opens closes body) (hstart : start ∈ emptyMatches)
    (hstop : stop ∈ emptyMatches) :
    Phrase may anchored .seq false false
      (start ++ ("\\(".toList ++ (body ++ "\\)".toList) ++ stop)) := by
  have hstart : OneToken may .nothing start := oneToken_emptyMatch hstart
  have hstop : OneToken may .nothing stop := oneToken_emptyMatch hstop
  have hgroup : Phrase may anchored .seq false false ("\\(".toList ++ (body ++ "\\)".toList)) :=
    .loose (.group .plain h)
  exact .append (.bare hstart) (.append hgroup (.bare hstop) (by simp) hstop.ne_nil nofun nofun)
    hstart.ne_nil (by simp) nofun nofun

theorem phrase_enclosed (grouping : Grouping) (h : Alternates ordered whole body)
    (may : Issue → Prop) (anchored : Prop) :
    ∃ p opens closes, Phrase may anchored p opens closes (enclosed grouping whole body) := by
  obtain ⟨p, opens, closes, hbody, -⟩ := h.phrase may anchored
  cases grouping with
  | word =>
    have hstart : "\\<".toList ∈ emptyMatches := by decide
    have hstop : "\\>".toList ∈ emptyMatches := by decide
    have hbounded := phrase_bounded hbody hstart hstop
    exact ⟨_, _, _, by simpa [enclosed] using hbounded⟩
  | symbol =>
    have hstart : "\\_<".toList ∈ emptyMatches := by decide
    have hstop : "\\_>".toList ∈ emptyMatches := by decide
    have hbounded := phrase_bounded hbody hstart hstop
    exact ⟨_, _, _, by simpa [enclosed] using hbounded⟩
  | capturing => exact ⟨_, _, _, by simpa [enclosed] using Phrase.group .plain hbody⟩
  | shy =>
    cases whole with
    | true => exact ⟨_, _, _, hbody⟩
    | false => exact ⟨_, _, _, by simpa [enclosed] using Phrase.group .shy hbody⟩

theorem phrase_stringChoice {texts : List (List Char)} {item : Item}
    (h : stringChoice texts = .ok item) :
    Phrase may anchored item.precedence false false item.text := by
  unfold stringChoice at h
  split at h
  · cases h
    exact phrase_literal _
  rename_i hsingle
  obtain ⟨text, htext, h⟩ := except_bind_eq_ok.mp h
  cases h
  obtain ⟨-, hnone⟩ | ⟨ordered, whole, body, harranged, hbody, heq⟩ :=
    alternatives_cases texts .shy true
  · cases hnone.symm.trans htext
    exact phrase_group phrase_unmatchable
  · cases heq.symm.trans htext
    have hmany : ordered.length ≠ 1 := by
      intro hlength
      obtain ⟨t, rfl⟩ := List.length_eq_one_iff.mp hlength
      have hperm : texts.eraseDups.Perm [t] :=
        (List.perm_ext_iff_of_nodup (nodup_eraseDups texts) harranged.nodup).mpr fun a =>
          List.mem_eraseDups.trans (harranged.mem a).symm
      exact hsingle t (List.perm_singleton.mp hperm)
    obtain ⟨p, opens, closes, hphrase, hwhole⟩ := hbody.phrase may anchored
    cases whole with
    | true =>
      obtain ⟨rfl, rfl, rfl⟩ := hwhole rfl hmany
      exact hphrase
    | false => exact phrase_group hphrase

/-- Nothing is reported about a phrase that allows no issue. -/
theorem Phrase.checker_eq {p : Precedence} {opens closes : Bool}
    (h : Phrase (fun _ => False) anchored p opens closes text) :
    checker (String.ofList text) = .ok [] := by
  obtain ⟨issues, hlint, hnone⟩ := h.lint_eq
  obtain rfl : issues = [] := List.eq_nil_iff_forall_not_mem.mpr hnone
  simp [checker, hlint]

end PatternLint.Rx

namespace PatternLint.Primitive

open Pattern.Regexp (checker)
open Rx (Phrase phrase_quote phrase_group phrase_unmatchable phrase_enclosed)

theorem mapM_asChars (texts : List String) :
    (texts.map Value.str).mapM Value.asChars = .ok (texts.map String.toList) := by
  induction texts with
  | nil => rfl
  | cons text texts ih =>
    rw [List.map_cons, List.mapM_cons, ih]
    rfl

theorem alternatives_strings (texts : List String) (paren keepOrder : Value) :
    alternatives [.ofList (texts.map .str), paren, keepOrder] =
      (Pattern.alternatives (texts.map String.toList) (groupingOf paren) (!keepOrder.isNil)).map
        Value.ofChars := by
  change (Value.asList _ >>= fun items => items.mapM Value.asChars >>= fun texts => _) = _
  rw [Value.asList_ofList]
  change ((texts.map Value.str).mapM Value.asChars >>= fun texts => _) = _
  rw [mapM_asChars]
  change (Pattern.alternatives _ _ _ >>= fun cs => pure (Value.ofChars cs)) = _
  cases Pattern.alternatives (texts.map String.toList) (groupingOf paren) (!keepOrder.isNil) <;> rfl

/-- Neither the regexp for a text nor that for several of them is ever
rejected or complained about. -/
theorem text_regexps_clean (text : String) (texts : List String) (paren keepOrder : Value) :
    (∃ regexp, mapText Pattern.quote [.str text] = .ok (.str regexp) ∧ checker regexp = .ok []) ∧
    ∃ regexp, alternatives [.ofList (texts.map .str), paren, keepOrder] = .ok (.str regexp) ∧
      checker regexp = .ok [] := by
  constructor
  · have hphrase : Phrase (fun _ => False) True .seq false false (Pattern.quote text.toList) :=
      phrase_quote text.toList
    exact ⟨_, rfl, hphrase.checker_eq⟩
  rw [alternatives_strings]
  obtain ⟨-, hnone⟩ | ⟨ordered, whole, body, -, hbody, heq⟩ :=
    Rx.alternatives_cases (texts.map String.toList) (groupingOf paren) (!keepOrder.isNil)
  · rw [hnone]
    have hphrase : Phrase (fun _ => False) True .atom false false Pattern.unmatchable :=
      phrase_group phrase_unmatchable
    exact ⟨_, rfl, hphrase.checker_eq⟩
  · rw [heq]
    obtain ⟨_, _, _, hphrase⟩ := phrase_enclosed (groupingOf paren) hbody (fun _ => False) True
    exact ⟨_, rfl, hphrase.checker_eq⟩

end PatternLint.Primitive
