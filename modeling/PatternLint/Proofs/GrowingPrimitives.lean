import Mathlib.Data.List.Sort
import Mathlib.Data.List.SplitBy
import PatternLint.Proofs.ClosedValues
import PatternLint.Proofs.MergedIntervals
import PatternLint.Proofs.SetArguments

/-! Values whose texts, lists and vectors are no longer than primitives may build them. -/

namespace PatternLint

namespace Value

/-- The number of characters of a text, or of the items of a list or vector; a dotted list is
counted without its tail. -/
def extent : Value → Nat
  | str text => text.length
  | list items | dotted items _ | vec items => items.length
  | _ => 0

/-- The values that a value consists of. -/
def parts : Value → List Value
  | list items | vec items => items
  | dotted items tail => tail :: items
  | closure formals body _ _ => formals :: body
  | _ => []

/-- At every depth, texts, lists and vectors are of bounded length. -/
inductive Bounded : Value → Prop where
  | intro {v : Value} (length : v.extent ≤ maxLength) (parts : ∀ part ∈ v.parts, Bounded part) :
      Bounded v

namespace Bounded

variable {v : Value} {items : List Value}

/-- A bounded value is not too long itself. -/
theorem length (h : v.Bounded) : v.extent ≤ maxLength := by
  cases h
  assumption

/-- Nor are any of its parts. -/
theorem part (h : v.Bounded) : ∀ part ∈ v.parts, part.Bounded := by
  cases h
  assumption

/-- A value that neither has a length nor parts. -/
theorem atom (hl : v.extent = 0) (hp : v.parts = []) : v.Bounded :=
  ⟨hl ▸ Nat.zero_le _, hp ▸ List.forall_mem_nil _⟩

theorem str {text : String} (h : text.length ≤ maxLength) : (Value.str text).Bounded :=
  ⟨h, List.forall_mem_nil _⟩

theorem list (h : ∀ v ∈ items, v.Bounded) (hl : items.length ≤ maxLength) :
    (Value.list items).Bounded :=
  ⟨hl, h⟩

theorem ofList (h : ∀ v ∈ items, v.Bounded) (hl : items.length ≤ maxLength) :
    (Value.ofList items).Bounded := by
  cases items with
  | nil => exact atom rfl rfl
  | cons v rest => exact list h hl

/-- Being bounded is kept by every primitive that checks lengths. -/
theorem closed : Closed Bounded where
  nil := atom rfl rfl
  t := atom rfl rfl
  int _ := atom rfl rfl
  float _ := atom rfl rfl
  str := str
  list h _ hl := list h hl
  item_list h := h.part
  item_dotted h v hv := h.part v (.tail _ hv)
  tail_dotted h := h.part _ List.mem_cons_self
  item_vec h := h.part
  less_str h hl := str (Nat.le_trans hl h.length)
  drop_list h n := ofList (fun v hv => h.part v (List.mem_of_mem_drop hv))
    (Nat.le_trans (List.drop_sublist n _).length_le h.length)
  drop_dotted {items tail n} h _ := by
    refine ⟨Nat.le_trans (List.drop_sublist n items).length_le h.length, ?_⟩
    refine List.forall_mem_cons.2 ⟨h.part tail List.mem_cons_self, fun v hv => ?_⟩
    exact h.part v (.tail _ (List.mem_of_mem_drop hv))
  less_vec h hitems hl := ⟨Nat.le_trans hl h.length, hitems⟩
  codes {text} h := by
    refine ⟨?_, fun v hv => ?_⟩
    · have hlen : (charCodes text).length = text.length := by
        rw [charCodes, List.length_map, String.length_toList]
      exact Nat.le_trans (Nat.le_of_eq hlen) h.length
    · obtain ⟨c, -, rfl⟩ := List.mem_map.1 hv
      exact atom rfl rfl

end Bounded

end Value

end PatternLint

/-! Primitives whose results outgrow the bound: for each of them a call on values of bounded length
that gives a value that is too long. -/

namespace PatternLint.Pattern

variable {codes : List Int}

/-- Codes between which others are left out. -/
abbrev Apart (codes : List Int) : Prop :=
  codes.Pairwise fun a b => a + 1 < b

/-- Codes that are apart are in order already, without repetition. -/
theorem ascending_apart (h : Apart codes) : ascending codes = codes := by
  obtain ⟨hsorted, hmem⟩ := Rx.ascending_spec codes
  have hlt : codes.Pairwise (· < ·) := h.imp fun hab => by omega
  exact hsorted.eq_of_mem_iff hlt hmem

/-- No two codes that are apart join to a run. -/
theorem runsOnto_apart {rs : List (Int × Int)} (h : Apart codes)
    (hrs : ∀ p ∈ rs.head?, ∀ c ∈ codes, p.2 + 1 < c) :
    runsOnto rs codes = (codes.map fun c => (c, c)).reverse ++ rs := by
  induction codes generalizing rs with
  | nil => rfl
  | cons c codes ih =>
    obtain ⟨hc, hcodes⟩ := List.pairwise_cons.1 h
    have hnext : runsOnto rs (c :: codes) = runsOnto ((c, c) :: rs) codes := by
      cases rs with
      | nil => rfl
      | cons p more =>
        have := hrs p rfl c List.mem_cons_self
        rw [runsOnto, if_neg (by omega)]
    rw [hnext, ih hcodes (by simpa using hc)]
    simp

theorem runTexts_apart (h : ∀ c ∈ codes, ∃ x, charOf c = .ok x) : ∃ texts,
    (codes.map fun c => (c, c)).mapM runText = .ok texts ∧ texts.flatten.length = codes.length := by
  induction codes with
  | nil => exact ⟨[], rfl, rfl⟩
  | cons c codes ih =>
    obtain ⟨⟨x, hx⟩, hcodes⟩ := List.forall_mem_cons.1 h
    obtain ⟨texts, htexts, hlen⟩ := ih hcodes
    have htext : runText (c, c) = .ok [x] := by
      simp [runText, hx, bind, Except.bind, pure, Except.pure]
    refine ⟨[x] :: texts, ?_, by simp [hlen]⟩
    rw [List.map_cons, List.mapM_cons, htext, htexts]
    rfl

/-- Each of the codes is written by itself, between the two brackets. -/
theorem charset_apart (hlen : 2 ≤ codes.length) (h : Apart codes)
    (hplain : ∀ c ∈ codes, isSetSpecial c = false) (hchar : ∀ c ∈ codes, ∃ x, charOf c = .ok x) :
    ∃ text, charset codes = .ok text ∧ text.length = codes.length + 2 := by
  obtain ⟨texts, htexts, hflat⟩ := runTexts_apart hchar
  obtain ⟨xs, hxs⟩ := Rx.mapM_ok hchar
  have hruns : runs (codes.filter fun c => !isSetSpecial c) = codes.map fun c => (c, c) := by
    have hfilter : codes.filter (fun c => !isSetSpecial c) = codes := by
      rw [List.filter_eq_self]
      simpa using hplain
    rw [hfilter, runs, runsOnto_apart h (by simp)]
    simp
  have hout : ∀ c ∈ setSpecials, (c.toNat : Int) ∉ codes := by
    intro c hc hmem
    have := hplain _ hmem
    simp [isSetSpecial] at this
    exact this c hc rfl
  have hbracket : (93 : Int) ∉ codes := hout ']' (by decide)
  have hcaret : (94 : Int) ∉ codes := hout '^' (by decide)
  have hhyphen : (45 : Int) ∉ codes := hout '-' (by decide)
  have hchars : charsOf codes = .ok xs := hxs
  unfold charset
  rw [ascending_apart h]
  split
  · cases hlen
  · simp at hlen
  · refine ⟨'[' :: (if texts.flatten.head? = some '^' then texts.flatten.reverse
      else texts.flatten) ++ [']'], ?_, ?_⟩
    · simp [hchars, hruns, htexts, hbracket, hcaret, hhyphen, bind, Except.bind, pure, Except.pure]
    · split <;> simp [hflat]

end PatternLint.Pattern

namespace PatternLint.Primitive

open Value (Bounded)

/-- Some call on values of bounded length gives a value that is too long. -/
def Exceeds (f : Primitive) : Prop :=
  ∃ args v, (∀ a ∈ args, a.Bounded) ∧ f args = .ok v ∧ maxLength < v.extent

variable {n : Nat}

theorem bounded_text {cs : List Char} (h : cs.length ≤ maxLength) : (Value.ofChars cs).Bounded :=
  .str (by rwa [String.length_ofList])

/-- Texts of one character, repeated within the bound. -/
theorem bounded_same (c : Char) (hn : n ≤ maxLength) :
    (Value.ofChars (List.replicate n c)).Bounded :=
  bounded_text (by rwa [List.length_replicate])

theorem bounded_nils (n : Nat) : ∀ v ∈ List.replicate n Value.nil, v.Bounded := by
  intro v hv
  rw [List.eq_of_mem_replicate hv]
  exact .atom rfl rfl

theorem bounded_nilList (hn : n ≤ maxLength) : (Value.list (List.replicate n .nil)).Bounded :=
  .list (bounded_nils n) (by rwa [List.length_replicate])

theorem extent_ofChars (cs : List Char) : (Value.ofChars cs).extent = cs.length :=
  String.length_ofList

/-- A mapping of texts that makes some text of bounded length too long. -/
theorem mapText_exceeds {f : List Char → List Char} (cs : List Char) (hcs : cs.length ≤ maxLength)
    (hf : maxLength < (f cs).length) : (mapText f).Exceeds := by
  refine ⟨[.ofChars cs], .ofChars (f cs), List.forall_mem_singleton.2 (bounded_text hcs), ?_, ?_⟩
  · simp only [mapText, unary, Value.asChars_ofChars]
    rfl
  · rwa [extent_ofChars]

/-- A list of the greatest length with one more item in front. -/
theorem cons_exceeds : cons.Exceeds := by
  obtain ⟨n, hn⟩ : ∃ n, n = maxLength := ⟨_, rfl⟩
  refine ⟨[.nil, .list (List.replicate n .nil)], .list (.nil :: List.replicate n .nil), ?_, rfl, ?_⟩
  · simp only [List.forall_mem_cons]
    exact ⟨.atom rfl rfl, bounded_nilList (Nat.le_of_eq hn), List.forall_mem_nil _⟩
  · simp [Value.extent, ← hn]

/-- Items in front of an end that is no list are not counted. -/
theorem append_exceeds : append.Exceeds := by
  obtain ⟨n, hn⟩ : ∃ n, n = maxLength := ⟨_, rfl⟩
  refine ⟨[.list (List.replicate n .nil), .list [.nil], .int 0],
    .dotted (List.replicate n .nil ++ [.nil]) (.int 0), ?_, ?_, ?_⟩
  · simp only [List.forall_mem_cons]
    refine ⟨bounded_nilList (Nat.le_of_eq hn), .list ?_ (by simp [maxLength]), .atom rfl rfl,
      List.forall_mem_nil _⟩
    exact List.forall_mem_singleton.2 (.atom rfl rfl)
  · cases n with
    | zero => rfl
    | succ n => rfl
  · simp [Value.extent, ← hn]

/-- As many items as there are arguments. -/
theorem vector_exceeds : Exceeds fun args => .ok (.vec args) := by
  obtain ⟨n, hn⟩ : ∃ n, n = maxLength := ⟨_, rfl⟩
  refine ⟨List.replicate (n + 1) .nil, .vec (List.replicate (n + 1) .nil), bounded_nils _, rfl, ?_⟩
  simp [Value.extent, ← hn]

theorem ofCodes_replicate (n : Nat) :
    ofCodes (List.replicate n (.int 97)) = .ok (List.replicate n 'a') := by
  induction n with
  | zero => rfl
  | succ n ih =>
    rw [ofCodes] at ih ⊢
    rw [List.replicate_succ, List.mapM_cons, ih]
    rfl

/-- As many characters as there are arguments. -/
theorem string_exceeds : string.Exceeds := by
  obtain ⟨n, hn⟩ : ∃ n, n = maxLength := ⟨_, rfl⟩
  refine ⟨List.replicate (n + 1) (.int 97), .ofChars (List.replicate (n + 1) 'a'), ?_, ?_, ?_⟩
  · intro v hv
    rw [List.eq_of_mem_replicate hv]
    exact .atom rfl rfl
  · rw [string, ofCodes_replicate]
    rfl
  · simp [extent_ofChars, ← hn]

/-- A mapping that makes texts of bounded length longer than that. -/
theorem mapCase_exceeds {f : List Char → List Char} (cs : List Char) (hcs : cs.length ≤ maxLength)
    (hf : maxLength < (f cs).length) : (mapCase f).Exceeds := by
  refine ⟨[.ofChars cs], .ofChars (f cs), List.forall_mem_singleton.2 (bounded_text hcs), ?_, ?_⟩
  · simp only [mapCase, unary, Value.ofChars]
    simp [Value.asChars, Value.asString, Except.map]
  · rwa [extent_ofChars]

/-- Two texts of the greatest length are joined without a check. -/
theorem joinTexts_exceeds : (unaryOr joinTexts).Exceeds := by
  obtain ⟨n, hn⟩ : ∃ n, n = maxLength := ⟨_, rfl⟩
  refine ⟨[.list [.ofChars (List.replicate n 'a'), .ofChars ['a']]],
    .ofChars (List.replicate n 'a' ++ ['a']),
    List.forall_mem_singleton.2 (.list ?_ (by simp [maxLength])), ?_, ?_⟩
  · simp only [List.forall_mem_cons]
    exact ⟨bounded_same 'a' (Nat.le_of_eq hn), bounded_text (by simp [maxLength]),
      List.forall_mem_nil _⟩
  · simp [unaryOr, joinTexts, Value.isNil, Value.asList, Value.asChars_ofChars, Text.join, pure,
      Except.pure, bind, Except.bind]
  · simp [extent_ofChars, ← hn]

/-- Every character is replaced by several. -/
theorem replaceText_exceeds : (ternary replaceText).Exceeds := by
  obtain ⟨n, hn⟩ : ∃ n, n = maxLength := ⟨_, rfl⟩
  have hreplace : Text.replace ['a'] (List.replicate n 'b') ['a', 'a'] =
      List.replicate n 'b' ++ List.replicate n 'b' := by
    simp [Text.replace, Text.join, Text.split, Text.splitFrom, List.intercalate, List.intersperse]
  refine ⟨[.ofChars ['a'], .ofChars (List.replicate n 'b'), .ofChars ['a', 'a']],
    .ofChars (List.replicate n 'b' ++ List.replicate n 'b'), ?_, ?_, ?_⟩
  · simp only [List.forall_mem_cons]
    exact ⟨bounded_text (by simp [maxLength]), bounded_same 'b' (Nat.le_of_eq hn),
      bounded_text (by simp [maxLength]), List.forall_mem_nil _⟩
  · simp only [ternary, replaceText, Value.asChars_ofChars]
    rw [← hreplace]
    rfl
  · have : 0 < maxLength := by decide
    simp [extent_ofChars]
    omega

/-- A name may be as long as any. -/
theorem symbolName_exceeds : (unary symbolName).Exceeds := by
  obtain ⟨n, hn⟩ : ∃ n, n = maxLength := ⟨_, rfl⟩
  refine ⟨[.sym (String.ofList (List.replicate (n + 1) 'a'))],
    .ofChars (List.replicate (n + 1) 'a'),
    List.forall_mem_singleton.2 (.atom rfl rfl), rfl, ?_⟩
  simp [extent_ofChars, ← hn]

/-- Quoting doubles the special characters. -/
theorem quote_exceeds : (mapText Pattern.quote).Exceeds := by
  obtain ⟨n, hn⟩ : ∃ n, n = maxLength := ⟨_, rfl⟩
  refine mapText_exceeds (List.replicate n '.') (by simp [hn]) ?_
  have : 0 < maxLength := by decide
  simp [Pattern.quote, Pattern.quoteChar, Pattern.regexpSpecials]
  omega

theorem wildcardBody_replicate (n : Nat) :
    Pattern.wildcardBody (List.replicate n 'a') = List.replicate n 'a' := by
  induction n with
  | zero => rw [List.replicate_zero, Pattern.wildcardBody]
  | succ n ih =>
    rw [List.replicate_succ, Pattern.wildcardBody, ih]
    · rfl
    all_goals simp

theorem wildcard_exceeds : (mapText Pattern.wildcard).Exceeds := by
  obtain ⟨n, hn⟩ : ∃ n, n = maxLength := ⟨_, rfl⟩
  refine mapText_exceeds (List.replicate n 'a') (by simp [hn]) ?_
  simp [Pattern.wildcard, wildcardBody_replicate, ← hn]
  omega

/-- A single text is its own alternative and only quoted. -/
theorem alternatives_single (t : List Char) :
    Pattern.alternatives [t] .shy false = .ok (Pattern.quote t) := by
  have hdups : [t].eraseDups = [t] := rfl
  simp [Pattern.alternatives, Pattern.alternation, hdups, List.intercalate, pure, Except.pure, bind,
    Except.bind]

theorem alternatives_exceeds : alternatives.Exceeds := by
  obtain ⟨n, hn⟩ : ∃ n, n = maxLength := ⟨_, rfl⟩
  refine ⟨[.list [.ofChars (List.replicate n '.')]],
    .ofChars (Pattern.quote (List.replicate n '.')),
    List.forall_mem_singleton.2 (.list ?_ (by simp [maxLength])), ?_, ?_⟩
  · exact List.forall_mem_singleton.2 (bounded_same '.' (Nat.le_of_eq hn))
  · have hsingle := alternatives_single (List.replicate n '.')
    simp [alternatives, flexible, Value.asList, Value.asChars_ofChars, pure, Except.pure, bind,
      Except.bind, groupingOf, Value.isNil, hsingle]
  · have : 0 < maxLength := by decide
    simp [extent_ofChars, Pattern.quote, Pattern.quoteChar, Pattern.regexpSpecials]
    omega

open Text.Case in
theorem upper_exceeds : (mapCase upper).Exceeds := by
  obtain ⟨n, hn⟩ : ∃ n, n = maxLength := ⟨_, rfl⟩
  have hchar : upperChar 'ß' = ['S', 'S'] := by decide +kernel
  refine mapCase_exceeds (List.replicate n 'ß') (by simp [hn]) ?_
  have : 0 < maxLength := by decide
  simp [upper, hchar]
  omega

open Text.Case in
/-- Repeated, a character that is mapped to several makes the text longer. -/
theorem lowerOnto_replicate {c : Char} (hc : c ≠ 'Σ') (out before : List Char) (n : Nat) :
    (lowerOnto out before (List.replicate n c)).length = out.length + n * (lowerChar c).length := by
  induction n generalizing out before with
  | zero => simp [lowerOnto]
  | succ n ih =>
    rw [List.replicate_succ, lowerOnto, ih]
    simp [lowerBetween, hc, Nat.succ_mul]
    omega

open Text.Case in
theorem lower_exceeds : (mapCase lower).Exceeds := by
  obtain ⟨n, hn⟩ : ∃ n, n = maxLength := ⟨_, rfl⟩
  refine mapCase_exceeds (List.replicate n (Char.ofNat 0x130)) (by simp [hn]) ?_
  have : 0 < maxLength := by decide
  rw [lower, lowerOnto_replicate (by decide)]
  simp [lowerChar]
  omega

open Text.Case in
theorem capitalize_exceeds : (mapCase capitalize).Exceeds := by
  obtain ⟨n, hn⟩ : ∃ n, n + 1 = maxLength := ⟨99999, rfl⟩
  have hword : Text.isWord 'ß' = true := by decide +kernel
  have htitle : titleChar 'ß' = ['S', 's'] := by decide +kernel
  have hlower : lowerChar 'ß' = ['ß'] := by decide +kernel
  refine mapCase_exceeds (List.replicate (n + 1) 'ß') (by simp [hn]) ?_
  have hruns : (List.replicate (n + 1) 'ß').splitBy (fun a b => Text.isWord a && Text.isWord b) =
      [List.replicate (n + 1) 'ß'] :=
    List.splitBy_of_isChain (by simp) (List.isChain_replicate_of_rel _ (by simp [hword]))
  have hall : (List.replicate (n + 1) 'ß').all Text.isWord = true := by simp [hword]
  rw [capitalize, hruns, List.flatMap_singleton, if_pos hall, List.replicate_succ, capitalizeWord,
    lowerOnto_replicate (by decide), htitle, hlower, ← hn]
  simp
  omega

section Charset

open Pattern (Apart charOf)

/-- As many codes as a list may hold, every other one of the codes from some place on. -/
def spreadCodes (n : Nat) : List Int :=
  (List.range n).map fun i : Nat => (0x20000 + 2 * i : Int)

theorem spreadCodes_apart (n : Nat) : Apart (spreadCodes n) :=
  List.pairwise_map.2 (List.pairwise_lt_range.imp fun h => by omega)

/-- Codes that are apart take a character each and the brackets two. -/
theorem charset_exceeds : (unary charset).Exceeds := by
  obtain ⟨n, hn⟩ : ∃ n, n = maxLength := ⟨_, rfl⟩
  have hlen : (spreadCodes n).length = n := by simp [spreadCodes]
  have hsize : 2 ≤ maxLength ∧ maxLength ≤ 100000 := by decide
  have hcode : ∀ c ∈ spreadCodes n, ∃ i < n, c = 0x20000 + 2 * (i : Int) := by
    intro c hc
    obtain ⟨i, hi, rfl⟩ := List.mem_map.1 hc
    exact ⟨i, List.mem_range.1 hi, rfl⟩
  have hplain : ∀ c ∈ spreadCodes n, Pattern.isSetSpecial c = false := by
    intro c hc
    obtain ⟨i, -, rfl⟩ := hcode c hc
    simp [Pattern.isSetSpecial, Pattern.setSpecials]
    omega
  have hchar : ∀ c ∈ spreadCodes n, ∃ x, charOf c = .ok x := by
    intro c hc
    obtain ⟨i, hi, rfl⟩ := hcode c hc
    unfold charOf
    rw [if_neg (by omega), if_neg (by omega)]
    split
    · exact ⟨_, rfl⟩
    · exact ⟨_, rfl⟩
  obtain ⟨text, htext, htextLen⟩ :=
    Pattern.charset_apart (by omega) (spreadCodes_apart n) hplain hchar
  refine ⟨[.vec ((spreadCodes n).map .int)], .ofChars text, ?_, ?_, ?_⟩
  · refine List.forall_mem_singleton.2 ⟨?_, fun v hv => ?_⟩
    · simp [Value.extent]
      omega
    · obtain ⟨c, -, rfl⟩ := List.mem_map.1 hv
      exact .atom rfl rfl
  · simp only [unary, charset, Value.asSequence, bind, Except.bind, Value.mapM_asInt, htext]
    rfl
  · rw [extent_ofChars]
    omega

end Charset

end PatternLint.Primitive
