import PatternLint.Proofs.RegexpMatching
import PatternLint.Proofs.WrittenAlternatives

/-! What alternatives of strings match. The regexp for a list of strings matches these strings and
no others, and tries them in their order. -/

namespace PatternLint.Rx

open Pattern (quoteChar regexpSpecials Grouping)
open Pattern.Regexp

variable {member : String → Char → Prop} {texts ordered done : List (List Char)} {body : List Char}
  {whole : Bool} {l : Level}

/-! ### Marks -/

theorem mark?_quoteChar (c : Char) : mark? (quoteChar c) = some (.item (.char c)) := by
  have hreading := quoteChar_reading c
  unfold quoteChar at hreading ⊢
  split
  · rename_i h
    simp only [regexpSpecials, List.mem_cons, List.not_mem_nil, or_false] at h
    rcases h with rfl | rfl | rfl | rfl | rfl | rfl | rfl | rfl <;> rfl
  · rename_i h
    rw [if_neg h] at hreading
    simp [mark?, hreading]

theorem SetOf.mark?_eq {codes : List Int} {cs : List Char} {spans : List Pattern.Span}
    (h : SetOf codes cs spans) : mark? ('[' :: cs) =
      some (.item (.set false (spans.map .span))) := by
  simp [mark?, h.reading_eq]

/-- The set of texts of one character matches just these. -/
theorem SetOf.matches_iff {cs : List Char} {spans : List Pattern.Span}
    (h : SetOf (ordered.flatten.map fun c => (c.toNat : Int)) cs spans)
    (hall : ∀ t ∈ ordered, t.length = 1) (c : Char) :
    (Reading.set false (spans.map .span)).Matches member c ↔ [c] ∈ ordered := by
  have helement : (Reading.set false (spans.map .span)).Matches member c ↔
      ∃ s ∈ spans, s.lo ≤ c ∧ c ≤ s.hi := by
    simp [Reading.Matches, Element.Matches]
  rw [helement, h.covers c]
  constructor
  · intro hmem
    obtain ⟨d, hd, heq⟩ := List.mem_map.mp hmem
    obtain ⟨t, ht, hdt⟩ := List.mem_flatten.mp hd
    obtain ⟨x, rfl⟩ := List.length_eq_one_iff.mp (hall t ht)
    rw [List.mem_singleton] at hdt
    rw [← toNat_inj.mp heq, hdt]
    exact ht
  · intro hmem
    exact List.mem_map.mpr ⟨c, List.mem_flatten.mpr ⟨_, hmem, List.mem_singleton.mpr rfl⟩, rfl⟩

/-! ### Texts -/

section
variable [∀ name c, Decidable (member name c)]

/-- Quoted text goes on with what is being read. -/
theorem turns_quote (cs : List Char) {v : List Char} (h : l.Tries member done [v]) :
    ∃ l', Turns l (Pattern.quote cs) l' ∧ l'.Tries member done [v ++ cs] := by
  induction cs generalizing l v with
  | nil => exact ⟨l, .nil, by simpa using h⟩
  | cons c cs ih =>
    have hc : Tree.Tries member (.item (.char c)) [[c]] :=
      .item (by simp) (by simp) fun x => by simp [Reading.Matches]
    have hadd : (l.add (.item (.char c))).Tries member done [v ++ [c]] := h.add hc
    obtain ⟨l', hturns, htries⟩ := ih hadd
    refine ⟨l', ?_, by simpa using htries⟩
    exact .append (.item (oneToken_quoteChar _ c) (mark?_quoteChar c)) hturns

/-- Alternatives of quoted texts come in their order behind those that are complete. -/
theorem turns_alternation (t : List Char) (more : List (List Char)) (h : l.Tries member done [[]]) :
    ∃ l', Turns l (Pattern.alternation ((t :: more).map Pattern.quote)) l' ∧
      l'.tree.Tries member (done ++ t :: more) := by
  induction more generalizing l done t with
  | nil =>
    obtain ⟨l', hturns, htries⟩ := turns_quote t h
    refine ⟨l', ?_, htries.whole⟩
    rwa [List.map_singleton, alternation_singleton]
  | cons t' more ih =>
    obtain ⟨l', hturns, htries⟩ := turns_quote t h
    obtain ⟨l'', hturns', htries'⟩ := ih t' htries.bar
    refine ⟨l'', ?_, by simpa using htries'⟩
    have heq : Pattern.alternation ((t :: t' :: more).map Pattern.quote) = Pattern.quote t ++
        ("\\|".toList ++ Pattern.alternation ((t' :: more).map Pattern.quote)) := by
      simp [Pattern.alternation]
    rw [heq]
    exact hturns.append (.append .bar hturns')

/-- However texts are written as alternatives, they are tried in their order. -/
theorem Alternates.turns (h : Alternates ordered whole body) (hnodup : ordered.Nodup)
    (member : String → Char → Prop) [∀ name c, Decidable (member name c)] :
    ∃ l, Turns .start body l ∧ l.tree.Tries member ordered := by
  have hstart : Level.start.Tries member [] [[]] := .start
  cases h with
  | single text =>
    obtain ⟨l, hturns, htries⟩ := turns_quote text hstart
    exact ⟨l, hturns, htries.whole⟩
  | set h hall =>
    refine ⟨_, .item h.oneToken h.mark?_eq, ?_⟩
    have htries := hstart.add (.item hnodup hall (h.matches_iff hall))
    simpa using htries.whole
  | choice a b more =>
    obtain ⟨l, hturns, htries⟩ := turns_alternation a (b :: more) hstart
    exact ⟨l, hturns, htries⟩

theorem tree_enclosed {grouping : Grouping} (h : Alternates ordered whole body)
    (hnodup : ordered.Nodup)
    (hgrouping : grouping = .shy ∨ grouping = .capturing) (member : String → Char → Prop)
    [∀ name c, Decidable (member name c)] :
    ∃ tree, tree? (enclosed grouping whole body) = some tree ∧ tree.Tries member ordered := by
  obtain ⟨l, hturns, htries⟩ := h.turns hnodup member
  obtain ⟨_, _, _, hphrase, -⟩ := h.phrase (fun _ => True) True
  have hgroup {opening : List Char} (hopening : Opening opening)
      (hmark : mark? opening = some .opens) :
        ∃ tree, tree? (opening ++ (body ++ "\\)".toList)) = some tree ∧
          tree.Tries member ordered := by
    refine ⟨_, (Turns.group hopening hmark hphrase.head hturns).tree?_eq, ?_⟩
    simpa using (Level.Tries.start.add htries).whole
  obtain rfl | rfl := hgrouping
  · cases whole with
    | true => exact ⟨_, hturns.tree?_eq, htries⟩
    | false => simpa [enclosed] using hgroup .shy rfl
  · simpa [enclosed] using hgroup .plain rfl

/-- Behind a character, no text starts. -/
theorem tries_nothing (r : Reading) :
    Tree.Tries member (.append (.append (.append .empty .textStart) (.item r)) .textStart) [] := by
  rintro ⟨before, rest⟩
  cases rest with
  | nil => simp [Tree.stops]
  | cons c rest =>
    have hbehind : ((⟨before, c :: rest⟩ : Place).past [c]).before ≠ [] := by simp [Place.past]
    by_cases hc : r.Matches member c
    · simp [Tree.stops, hc, hbehind]
    · simp [Tree.stops, hc]

/-- The regexp for no text at all. -/
theorem tree_unmatchable (member : String → Char → Prop) [∀ name c, Decidable (member name c)] :
    ∃ tree, tree? Pattern.unmatchable = some tree ∧ tree.Tries member [] := by
  have hstart (l : Level) : Turns l "\\`".toList (l.add .textStart) :=
    .token (oneToken_emptyMatch (by decide)) rfl fun _ _ => rfl
  have hchar (l : Level) : Turns l ['a'] (l.add (.item (.char 'a'))) :=
    .item (oneToken_quoteChar _ 'a') rfl
  have hbody := (hstart .start).append ((hchar _).append (hstart _))
  refine ⟨_, (Turns.group .shy rfl (by simp) hbody).tree?_eq, ?_⟩
  exact (Level.Tries.start.add (tries_nothing (.char 'a'))).whole

end

end PatternLint.Rx

namespace PatternLint.Primitive

open Pattern.Regexp

theorem groupingOf_unbounded {paren : Value} (hwords : paren ≠ .sym "words")
    (hsymbols : paren ≠ .sym "symbols") :
    groupingOf paren = .shy ∨ groupingOf paren = .capturing := by
  unfold groupingOf
  split
  · exact absurd rfl hwords
  · exact absurd rfl hsymbols
  · split
    · exact .inl rfl
    · exact .inr rfl

/-- What is tried for a list of strings: each of them, and unless the order is
kept, longer ones first. -/
theorem alternatives_tried (texts : List (List Char)) {grouping : Pattern.Grouping}
    (keepOrder : Bool)
    (hgrouping : grouping = .shy ∨ grouping = .capturing) (member : String → Char → Prop)
    [∀ name c, Decidable (member name c)] :
    ∃ regexp tree ordered, Pattern.alternatives texts grouping keepOrder = .ok regexp ∧
      tree? regexp = some tree ∧ Rx.Arranged texts keepOrder ordered ∧
          tree.Tries member ordered := by
  obtain ⟨rfl, heq⟩ | ⟨ordered, whole, body, harranged, hbody, heq⟩ :=
    Rx.alternatives_cases texts grouping keepOrder
  · obtain ⟨tree, htree, htries⟩ := Rx.tree_unmatchable member
    exact ⟨_, tree, [], heq, htree, ⟨fun _ => Iff.rfl, .nil, fun _ => .nil⟩, htries⟩
  · obtain ⟨tree, htree, htries⟩ := Rx.tree_enclosed hbody harranged.nodup hgrouping member
    exact ⟨_, tree, ordered, heq, htree, harranged, htries⟩

/-- The regexp for a list of strings matches a whole text when the text is in the list
and never otherwise; and unless the order is kept, a match takes the longest of the
strings that stand there. -/
theorem alternatives_denote (texts : List String) {paren : Value} (keepOrder : Value)
    (hwords : paren ≠ .sym "words") (hsymbols : paren ≠ .sym "symbols")
    (member : String → Char → Prop) [∀ name c, Decidable (member name c)] :
    ∃ regexp tree, alternatives [.ofList (texts.map .str), paren, keepOrder] = .ok (.str regexp) ∧
      tree? regexp.toList = some tree ∧
      (∀ text : String, tree.Matches member text.toList ↔ text ∈ texts) ∧
      (keepOrder.isNil = true → ∀ p q, (tree.stops member p).head? = some q ↔
        ∃ text ∈ texts, text.toList <+: p.rest ∧ q = p.past text.toList ∧
          ∀ other ∈ texts, other.toList <+: p.rest → other.length ≤ text.length) := by
  obtain ⟨regexp, tree, ordered, heq, htree, harranged, htries⟩ :=
    alternatives_tried (texts.map String.toList) (!keepOrder.isNil)
      (groupingOf_unbounded hwords hsymbols) member
  refine ⟨String.ofList regexp, tree, ?_, by rwa [String.toList_ofList], fun text => ?_,
    fun hnil p q => ?_⟩
  · rw [alternatives_strings, heq]
    rfl
  · rw [htries.matches_iff, harranged.mem]
    exact List.mem_map_of_injective fun _ _ => String.toList_injective
  · rw [htries.head?_iff (harranged.longest (by simp [hnil]))]
    simp [harranged.mem, String.length_toList]

/-- Strings that begin others, one that is empty, one with an operator, and one that comes twice. -/
def overlapping : List String :=
  ["a", "ab", "", "a*", "ab"]

theorem overlapping_denoted : ∃ tree,
    alternatives [.ofList (overlapping.map .str), .nil, .nil]
      = .ok (.str "\\(?:a\\*\\|ab\\|a\\|\\)") ∧
    tree? "\\(?:a\\*\\|ab\\|a\\|\\)".toList = some tree ∧
    (∀ text : String, tree.Matches (fun _ _ => False) text.toList ↔ text ∈ overlapping) ∧
    (tree.stops (fun _ _ => False) ⟨[], "abc".toList⟩).head? = some ⟨"ba".toList, "c".toList⟩ := by
  have hpattern : Pattern.alternatives (overlapping.map String.toList) .shy false
      = .ok "\\(?:a\\*\\|ab\\|a\\|\\)".toList := by
    rw [Pattern.alternatives, Rx.mergeSort_insertion]
    exact Rx.ok_of_toOption (by decide +kernel)
  have hwritten : alternatives [.ofList (overlapping.map .str), .nil, .nil]
      = .ok (.str "\\(?:a\\*\\|ab\\|a\\|\\)") := by
    rw [alternatives_strings]
    exact congrArg (Except.map Value.ofChars) hpattern
  have hwords : Value.nil ≠ .sym "words" := by simp
  have hsymbols : Value.nil ≠ .sym "symbols" := by simp
  obtain ⟨regexp, tree, heq, htree, hmatches, hfirst⟩ :=
    alternatives_denote overlapping .nil hwords hsymbols fun _ _ => False
  cases hwritten.symm.trans heq
  refine ⟨tree, hwritten, htree, hmatches, (hfirst rfl _ _).mpr ⟨"ab", ?_⟩⟩
  exact ⟨by decide, by decide, rfl, by decide⟩

end PatternLint.Primitive
