import PatternLint.Proofs.OpenSets
import PatternLint.Analysis.Splice

/-! Splices into sets. The check searches a text for a bracket that stays open and knows nothing of
the brackets before it; here it is compared with the reading of the text from the left. -/

namespace PatternLint.Analysis

open Pattern.Regexp

/-- A match of the pattern that is searched for: a bracket behind a run of paired backslashes, with
nothing but a caret and a first bracket between it and a rest that closes nothing. -/
structure OpenBracket (cs : List Char) where
  before : List Char
  pairs : Nat
  caret : List Char
  first : List Char
  tail : List Char
  text : cs = before ++ List.replicate (2 * pairs) '\\' ++ '[' :: (caret ++ first ++ tail)
  run : before.getLast? ≠ some '\\'
  caret_or : caret = [] ∨ caret = ['^']
  first_or : first = [] ∨ first = [']']
  unclosed : ']' ∉ tail

/-- A bracket stands in a text that no backslash quotes. -/
def hasBracket (escaped : Bool) : List Char → Bool
  | [] => false
  | '\\' :: rest => hasBracket (!escaped) rest
  | '[' :: rest => !escaped || hasBracket false rest
  | _ :: rest => hasBracket false rest

/-- A text ends in a bracket that no backslash quotes, or in such a bracket and a caret. -/
def endsBracket (escaped : Bool) : List Char → Bool
  | [] => false
  | '\\' :: rest => endsBracket (!escaped) rest
  | '[' :: rest => if rest = [] ∨ rest = ['^'] then !escaped else endsBracket false rest
  | _ :: rest => endsBracket false rest

/-- The last closing bracket of a text ends a class, and no bracket stands behind it. -/
def hidesOpening : List Char → Bool
  | [] => false
  | c :: rest =>
    if c == ':' && rest.head? == some ']' && !(rest.drop 1).contains ']' then !hasBracket false rest
    else hidesOpening rest

theorem staysOpen_append (s v : List Char) :
    staysOpen (s ++ ']' :: v) = (decide (s = [] ∨ s = ['^']) && !v.contains ']') := by
  rcases s with _ | ⟨a, _ | ⟨b, s⟩⟩
  · simp [staysOpen]
  · by_cases ha : a = '^'
    · subst ha; simp [staysOpen]
    · simp [staysOpen, ha]
      grind
  · simp [staysOpen]
    grind

theorem staysOpen_of_no_close (h : ']' ∉ cs) : staysOpen cs = true := by
  have hdrop : ∀ (cs : List Char) x, ']' ∉ cs →
      ']' ∉ if cs.head? == some x then cs.drop 1 else cs := by
    intro cs x hcs
    split
    · exact fun hmem => hcs (List.mem_of_mem_drop hmem)
    · exact hcs
  simpa [staysOpen] using hdrop _ ']' (hdrop cs '^' h)

/-- A bracket before the last closing one can only stay open if it stands right before it. -/
theorem opensSet_append (escaped : Bool) (s v : List Char) :
    opensSet escaped (s ++ ']' :: v)
      = (opensSet false v || (!v.contains ']' && endsBracket escaped s)) := by
  induction s generalizing escaped with
  | nil => simp [opensSet, endsBracket]
  | cons c s ih =>
    by_cases hslash : c = '\\'
    · subst hslash
      simp only [List.cons_append, opensSet, endsBracket, ih]
    · by_cases hopen : c = '['
      · subst hopen
        simp only [List.cons_append, opensSet, endsBracket, ih, staysOpen_append]
        by_cases hs : s = [] ∨ s = ['^']
        · rcases hs with rfl | rfl <;> simp [endsBracket] <;> grind
        · simp [hs]
      · simp_all [opensSet, endsBracket]

/-- Where nothing is closed, every bracket that no backslash quotes stays open. -/
theorem opensSet_of_no_close (escaped : Bool) (h : ']' ∉ cs) :
    opensSet escaped cs = hasBracket escaped cs := by
  induction cs generalizing escaped with
  | nil => rfl
  | cons c cs ih =>
    have hcs : ']' ∉ cs := List.not_mem_of_not_mem_cons h
    by_cases hslash : c = '\\'
    · subst hslash
      simp only [opensSet, hasBracket, ih _ hcs]
    · by_cases hopen : c = '['
      · subst hopen
        simp only [opensSet, hasBracket, ih _ hcs, staysOpen_of_no_close hcs, Bool.and_true]
      · simp_all [opensSet, hasBracket]

theorem hidesOpening_of_no_close (h : ']' ∉ cs) : hidesOpening cs = false := by
  induction cs with
  | nil => rfl
  | cons c cs ih =>
    have hcs : ']' ∉ cs := List.not_mem_of_not_mem_cons h
    have hhead : cs.head? ≠ some ']' := fun hhead => hcs (List.mem_of_mem_head? hhead)
    rw [hidesOpening, if_neg (by simp [hhead]), ih hcs]

theorem hidesOpening_append (s : List Char) (hv : ']' ∉ v) :
    hidesOpening (s ++ ']' :: v) = (decide (s.getLast? = some ':') && !hasBracket false v) := by
  induction s with
  | nil => simp [hidesOpening, hidesOpening_of_no_close hv]
  | cons c s ih =>
    obtain _ | ⟨d, s⟩ := s
    · by_cases hc : c = ':'
      · simp [hidesOpening, hc, hv, hasBracket]
      · simp [hidesOpening, hc, hidesOpening_of_no_close hv]
    · rw [List.cons_append, hidesOpening, if_neg (by simp), ih]
      simp

theorem split_last_close (h : ']' ∈ cs) : ∃ s v, cs = s ++ ']' :: v ∧ ']' ∉ v := by
  obtain ⟨v, s, heq, hv⟩ := List.eq_append_cons_of_mem (List.mem_reverse.mpr h)
  refine ⟨s.reverse, v.reverse, ?_, by simpa using hv⟩
  simpa using congrArg List.reverse heq

/-- A text ends in a backslash that quotes what comes next. -/
def quotes (escaped : Bool) (cs : List Char) : Bool :=
  cs.foldl (fun escaped c => c == '\\' && !escaped) escaped

theorem quotes_run (escaped : Bool) (n : Nat) :
    quotes escaped (List.replicate n '\\') = (escaped != (n % 2 == 1)) := by
  induction n generalizing escaped with
  | zero => simp [quotes]
  | succ n ih =>
    rw [List.replicate_succ, quotes, List.foldl_cons, ← quotes, ih]
    cases escaped <;> grind

theorem quotes_behind (h : cs.getLast? ≠ some '\\') : quotes false cs = false := by
  obtain rfl | ⟨cs, c, rfl⟩ := List.eq_nil_or_concat cs
  · rfl
  · have hc : c ≠ '\\' := by simpa using h
    simp [quotes, hc]

theorem exists_run (cs : List Char) : ∃ before n, cs = before ++ List.replicate n '\\' ∧
    before.getLast? ≠ some '\\' := by
  induction h : cs.length generalizing cs with
  | zero => exact ⟨[], 0, List.length_eq_zero_iff.mp h, by simp⟩
  | succ n ih =>
    obtain rfl | ⟨cs, c, rfl⟩ := List.eq_nil_or_concat cs
    · cases h
    · by_cases hc : c = '\\'
      · obtain ⟨before, n, hcs, hlast⟩ := ih cs (by simpa using h)
        exact ⟨before, n + 1, by simp [hcs, hc, List.replicate_succ'], hlast⟩
      · exact ⟨cs ++ [c], 0, by simp, by simpa using hc⟩

theorem opensSet_iff_split {escaped : Bool} : opensSet escaped cs = true ↔
    ∃ u rest, cs = u ++ '[' :: rest ∧ quotes escaped u = false ∧ staysOpen rest = true := by
  induction cs generalizing escaped with
  | nil => simp [opensSet]
  | cons c cs ih =>
    have hsplit : (∃ u rest, c :: cs = u ++ '[' :: rest ∧ quotes escaped u = false ∧
        staysOpen rest = true) ↔ (c = '[' ∧ escaped = false ∧ staysOpen cs = true) ∨
          opensSet (c == '\\' && !escaped) cs = true := by
      rw [ih]
      constructor
      · rintro ⟨_ | ⟨x, u⟩, rest, heq, hquotes, hrest⟩
        · obtain ⟨rfl, rfl⟩ := by simpa using heq
          exact .inl ⟨rfl, hquotes, hrest⟩
        · obtain ⟨rfl, rfl⟩ := by simpa using heq
          exact .inr ⟨u, rest, rfl, hquotes, hrest⟩
      · rintro (⟨rfl, hescaped, hrest⟩ | ⟨u, rest, rfl, hquotes, hrest⟩)
        · exact ⟨[], cs, rfl, hescaped, hrest⟩
        · exact ⟨c :: u, rest, rfl, hquotes, hrest⟩
    rw [hsplit]
    by_cases hslash : c = '\\'
    · subst hslash
      simp [opensSet]
    · by_cases hopen : c = '['
      · subst hopen
        simp [opensSet]
      · have hslash : (c == '\\') = false := by simpa using hslash
        simp [opensSet, hslash, hopen]

theorem staysOpen_iff {rest : List Char} : staysOpen rest = true ↔ ∃ caret first tail,
    rest = caret ++ first ++ tail ∧ (caret = [] ∨ caret = ['^']) ∧ (first = [] ∨ first = [']']) ∧
    ']' ∉ tail := by
  constructor
  · intro h
    by_cases hclose : ']' ∈ rest
    · obtain ⟨s, v, rfl, hv⟩ := split_last_close hclose
      rw [staysOpen_append, Bool.and_eq_true, decide_eq_true_eq] at h
      exact ⟨s, [']'], v, by simp, h.1, .inr rfl, hv⟩
    · exact ⟨[], [], rest, rfl, .inl rfl, .inl rfl, hclose⟩
  · rintro ⟨caret, first, tail, rfl, hcaret, rfl | rfl, htail⟩
    · exact staysOpen_of_no_close (by rcases hcaret with rfl | rfl <;> simpa using htail)
    · rw [List.append_assoc, List.singleton_append, staysOpen_append]
      simp [hcaret, htail]

theorem leavesSetOpen_iff_match : leavesSetOpen cs = true ↔ Nonempty (OpenBracket cs) := by
  rw [leavesSetOpen, opensSet_iff_split]
  constructor
  · rintro ⟨u, rest, rfl, hquotes, hrest⟩
    obtain ⟨caret, first, tail, rfl, hcaret, hfirst, htail⟩ := staysOpen_iff.mp hrest
    obtain ⟨before, n, rfl, hrun⟩ := exists_run u
    rw [quotes, List.foldl_append, ← quotes, ← quotes, quotes_behind hrun, quotes_run] at hquotes
    have hn : n = 2 * (n / 2) := by
      have : n % 2 ≠ 1 := by simpa using hquotes
      omega
    exact ⟨before, n / 2, caret, first, tail, by rw [← hn], hrun, hcaret, hfirst, htail⟩
  · rintro ⟨before, pairs, caret, first, tail, rfl, hrun, hcaret, hfirst, htail⟩
    refine ⟨_, _, rfl, ?_, staysOpen_iff.mpr ⟨caret, first, tail, rfl, hcaret, hfirst, htail⟩⟩
    rw [quotes, List.foldl_append, ← quotes, ← quotes, quotes_behind hrun, quotes_run]
    simp

theorem endsBracket_last (h : endsBracket escaped s = true) :
    s.getLast? = some '[' ∨ s.getLast? = some '^' := by
  induction s generalizing escaped with
  | nil => cases h
  | cons c s ih =>
    by_cases hs : c = '[' ∧ (s = [] ∨ s = ['^'])
    · rcases hs with ⟨rfl, rfl | rfl⟩ <;> simp
    · have hends : ∃ escaped, endsBracket escaped s = true := by
        unfold endsBracket at h
        grind
      obtain ⟨escaped, hends⟩ := hends
      rcases ih hends with h | h <;> simp [List.getLast?_cons, h]

/-- What stands before the last closing bracket of a set that stays open. -/
theorem last_of_openSet (hv : ']' ∉ v)
    (h : behindSet? true ((s ++ ']' :: v).drop (caretLength (s ++ ']' :: v))) = none) :
    (s = [] ∨ s = ['^']) ∨ s.getLast? = some ':' := by
  obtain _ | ⟨c, s⟩ := s
  · exact .inl (.inl rfl)
  · by_cases hc : c = '^'
    · subst hc
      have hopen : behindSet? true (s ++ ']' :: v) = none := by simpa [caretLength] using h
      rcases last_of_open hopen hv with ⟨-, rfl⟩ | hlast
      · exact .inl (.inr rfl)
      · exact .inr (by simp [List.getLast?_cons, hlast])
    · have hopen : behindSet? true (c :: s ++ ']' :: v) = none := by
        simpa [caretLength, hc] using h
      rcases last_of_open hopen hv with ⟨-, hs⟩ | hlast
      · cases hs
      · exact .inr hlast

theorem opensSet_open (h : behindSet? true (rest.drop (caretLength rest)) = none) :
    opensSet false ('[' :: rest) = !hidesOpening rest := by
  by_cases hclose : ']' ∈ rest
  · obtain ⟨s, v, rfl, hv⟩ := split_last_close hclose
    have hends : endsBracket false ('[' :: s) = !decide (s.getLast? = some ':') := by
      rcases last_of_openSet hv h with hs | hlast
      · rcases hs with rfl | rfl <;> rfl
      · simp only [hlast, decide_true, Bool.not_true, Bool.eq_false_iff]
        intro hends
        simpa [List.getLast?_cons, hlast] using endsBracket_last hends
    rw [← List.cons_append, opensSet_append, opensSet_of_no_close false hv,
      hidesOpening_append s hv, hends]
    simp [hv]
    grind
  · rw [opensSet_of_no_close false (by simpa using hclose), hidesOpening_of_no_close hclose]
    rfl

theorem opensSet_closed (h : behindSet? true (rest.drop (caretLength rest)) = some after) :
    ∃ inner, rest = inner ++ ']' :: after ∧ opensSet false ('[' :: rest) =
      (opensSet false after || (!after.contains ']' && endsBracket false inner)) := by
  obtain ⟨inner, hinner, hne⟩ := behindSet?_some h
  refine ⟨rest.take (caretLength rest) ++ inner, ?_, ?_⟩
  · rw [List.append_assoc, ← hinner, List.take_append_drop]
  · have hrest : rest = rest.take (caretLength rest) ++ inner ++ ']' :: after := by
      rw [List.append_assoc, ← hinner, List.take_append_drop]
    have hends : endsBracket false ('[' :: (rest.take (caretLength rest) ++ inner)) =
        endsBracket false (rest.take (caretLength rest) ++ inner) := by
      have hinner : inner ≠ [] := hne rfl
      unfold caretLength at hrest ⊢
      rw [endsBracket, if_neg]
      split at hrest <;> grind
    rw [← hends, ← opensSet_append, List.cons_append, ← hrest]

/-- The check of splices goes wrong about a text: its open set has a class, behind which no bracket
stands, or its last closing bracket closes a set right behind a bracket. -/
def misread (cs : List Char) : Bool :=
  match lastSet? cs with
  | none => false
  | some ⟨content, none⟩ => hidesOpening content
  | some ⟨content, some after⟩ =>
    !after.contains ']' && endsBracket false (content.take (content.length - (after.length + 1)))

theorem leavesSetOpen_eq (cs : List Char) : leavesSetOpen cs = (endsInSet cs != misread cs) := by
  unfold leavesSetOpen endsInSet misread
  fun_induction lastSet? cs with
  | case1 => rfl
  | case2 c rest hc ih =>
    obtain rfl : c = '\\' := by simpa using hc
    rw [← ih]
    obtain _ | ⟨x, rest⟩ := rest
    · rfl
    · by_cases hx : x = '\\' <;> by_cases hx' : x = '[' <;> simp_all [opensSet]
  | case3 c rest hc hopen hset =>
    obtain rfl : c = '[' := by simpa using hopen
    simp [opensSet_open hset]
  | case4 c rest hc hopen after hset ih =>
    obtain rfl : c = '[' := by simpa using hopen
    obtain ⟨inner, hrest, hopens⟩ := opensSet_closed hset
    have hcontent : rest.take (rest.length - (after.length + 1)) = inner := by
      rw [hrest]
      simp
    rw [hopens, ih]
    cases hlast : lastSet? after with
    | none => simp [hcontent]
    | some set =>
      -- A later set that closes nothing keeps the bracket before this one from mattering.
      obtain ⟨content, behind | behind⟩ := set
      · have hhides : ']' ∉ after → hidesOpening content = false := fun hafter =>
          hidesOpening_of_no_close fun hmem => hafter (lastSet?_content hlast hmem)
        by_cases hafter : ']' ∈ after
        · simp [hafter]
        · simp [hhides hafter]
      · simp [lastSet?_closed hlast]
  | case5 c rest hc hopen ih =>
    rw [← ih]
    simp_all [opensSet]

theorem leavesSetOpen_of_read (h : misread cs = false) : leavesSetOpen cs = endsInSet cs := by
  rw [leavesSetOpen_eq, h, Bool.bne_false]

/-- The pieces of a concatenation, each behind a text that ends inside a set, with
the indices of the texts. -/
def splicedPieces (index : Nat) (pieces : List Value) : List ((Value × Value) × Nat) :=
  ((pieces.zip (pieces.drop 1)).zipIdx index).filter fun p =>
    p.1.1.strText?.any fun text => endsInSet text.toList

/-- The argument that a plain conversion fills in behind a text that ends inside a set, with
its place in the form. -/
def splicedArgument? (fmt : List Char) (form : List Value) (c : Primitive.Conversion) :
    Option (Value × Nat) :=
  match c.directive with
  | .argument index spec =>
    if spec.conversion = 's' ∧ endsInSet (fmt.take c.start) then
      (form[(index + 2).toNat]?).map fun arg => (arg, (index + 2).toNat)
    else none
  | .percent => none

section
variable [Conduct] {doc : Document} {site : Site}

theorem checkPieces_eq {pieces : List Value}
    (h : ∀ text, .str text ∈ pieces.dropLast → misread text.toList = false) :
    checkPieces doc site index pieces = (splicedPieces index pieces).forM (fun p => do
      reportSplices doc p.1.2 (← (site.child (p.2 + 1)).take)) := by
  induction pieces generalizing index with
  | nil => rfl
  | cons piece pieces ih =>
    cases pieces with
    | nil => rfl
    | cons next rest =>
      have ih := @ih (index + 1) fun text hmem => h text (.tail _ hmem)
      have hopen : (piece.strText?.any fun text => leavesSetOpen text.toList) =
          piece.strText?.any fun text => endsInSet text.toList := by
        cases piece with
        | str text =>
          exact leavesSetOpen_of_read (h text (by simp))
        | _ => rfl
      rw [checkPieces, hopen, ih]
      simp only [splicedPieces, List.drop_succ_cons, List.drop_zero, List.zip_cons_cons,
        List.zipIdx_cons, List.filter_cons]
      split <;> simp

theorem checkConversions_eq {fmt : List Char} {form : List Value}
    {found : List Primitive.Conversion} (h : ∀ c ∈ found, misread (fmt.take c.start) = false) :
    checkConversions doc fmt form site found =
      (found.filterMap (splicedArgument? fmt form)).forM (fun p => do
      reportSplices doc p.1 (← (site.child p.2).take)) := by
  induction found with
  | nil => rfl
  | cons c rest ih =>
    have ih := ih fun c hc => h c (.tail _ hc)
    rw [checkConversions, leavesSetOpen_of_read (h c List.mem_cons_self), ih]
    rw [List.filterMap_cons, splicedArgument?]
    cases c.directive with
    | percent => rfl
    | argument index spec =>
      cases harg : form[(index + 2).toNat]? with
      | none => simp [harg]
      | some arg =>
        by_cases hspec : spec.conversion = 's' ∧ endsInSet (fmt.take c.start) = true
        · simp [harg, hspec]
        · simp [harg, hspec]

end

/-- The search finds what its pattern matches. It agrees with the reading from the left, whose sets
are closed where the linter closes them, about exactly the texts that are not misread; where none is
misread, the checks consider exactly the values behind sets that are open. -/
theorem splices_considered [Conduct] (doc : Document) (site : Site) :
    (∀ cs, leavesSetOpen cs = true ↔ Nonempty (OpenBracket cs)) ∧
    (∀ cs, (leavesSetOpen cs = true ↔ endsInSet cs = true) ↔ misread cs = false) ∧
    (∀ origin pos seen issues cs,
      (∀ issues' stop, setFrom origin pos true seen issues cs = .ok (issues', stop) →
        ∃ after, behindSet? true cs = some after ∧ stop = pos + (cs.length - after.length)) ∧
      ∀ place, setFrom origin pos true seen issues cs = .error (.malformed place .openSet) →
        behindSet? true cs = none) ∧
    (∀ index pieces, (∀ text, .str text ∈ pieces.dropLast → misread text.toList = false) →
      checkPieces doc site index pieces = (splicedPieces index pieces).forM (fun p => do
        reportSplices doc p.1.2 (← (site.child (p.2 + 1)).take))) ∧
    ∀ fmt form found, (∀ c ∈ found, misread (fmt.take c.start) = false) →
      checkConversions doc fmt form site found =
        (found.filterMap (splicedArgument? fmt form)).forM (fun p => do
          reportSplices doc p.1 (← (site.child p.2).take)) := by
  refine ⟨fun _ => leavesSetOpen_iff_match, fun cs => ?_,
    fun origin pos seen issues cs => ⟨fun _ _ => behindSet?_of_ok, fun _ => behindSet?_of_open⟩,
    fun index pieces => checkPieces_eq, fun fmt form found => checkConversions_eq⟩
  rw [leavesSetOpen_eq]
  cases endsInSet cs <;> cases misread cs <;> simp

/-- A quoted text behind the start of a negated set. -/
def splicedForm : Value :=
  .list [.sym "concat", .str "[^", .list [.sym "regexp-quote", .sym "x"]]

def splicedText : Document :=
  ⟨"a.el", "(concat \"[^\" (regexp-quote x))".toList, fun _ => .ok [], fun _ => .ok [], 10⟩

theorem splices_considered_quoted :
    checkPieces splicedText ⟨0, [], splicedForm⟩ 1
      [.str "[^", .list [.sym "regexp-quote", .sym "x"]] = (do
      reportSplices splicedText (.list [.sym "regexp-quote", .sym "x"])
        (← (Site.child ⟨0, [], splicedForm⟩ 2).take)) := by
  have hread : ∀ text, Value.str text ∈ [Value.str "[^"] → misread text.toList = false := by
    rintro text htext
    obtain rfl : text = "[^" := by simpa using htext
    decide +kernel
  have hpieces : splicedPieces 1 [.str "[^", .list [.sym "regexp-quote", .sym "x"]] =
      [((.str "[^", .list [.sym "regexp-quote", .sym "x"]), 1)] := by
    have hopen : endsInSet "[^".toList = true := by decide +kernel
    simpa [splicedPieces, Value.strText?] using hopen
  rw [(splices_considered splicedText ⟨0, [], splicedForm⟩).2.2.2.1 1
    [.str "[^", .list [.sym "regexp-quote", .sym "x"]] hread, hpieces]
  simp

/-- Behind a class the search finds no bracket, and the second bracket of a set passes for one that
begins a set. -/
theorem misread_sets :
    (leavesSetOpen "[[:alpha:]".toList = false ∧ endsInSet "[[:alpha:]".toList = true) ∧
      leavesSetOpen "[[]".toList = true ∧ endsInSet "[[]".toList = false := by
  decide +kernel

end PatternLint.Analysis
