import PatternLint.Proofs.BracketReading

/-! Sets that are open at the end of a text, which is read from the left as the linter reads it. -/

namespace PatternLint.Pattern.Regexp

/-- How many characters an element of a set takes after the first one; a class may have any name. -/
def elementLength (c : Char) (rest : List Char) : Nat :=
  match className? (c :: rest) with
  | some name => name.length + 3
  | none => if (range? (c :: rest)).isSome then 2 else 0

/-- What follows the bracket that closes a set, if one does. -/
def behindSet? (first : Bool) (cs : List Char) : Option (List Char) :=
  match _h : cs with
  | [] => none
  | c :: rest =>
    if c == ']' && !first then some rest
    else behindSet? false (rest.drop (elementLength c rest))
termination_by cs.length
decreasing_by rw [List.length_drop, List.length_cons]; omega

theorem element?_elementLength (h : element? c rest = some (e, n)) : n = elementLength c rest := by
  unfold element? at h
  unfold elementLength
  grind

theorem behindSet?_of_elements (h : elements first cs = some (es, after)) :
    behindSet? first cs = some after := by
  fun_induction elements first cs generalizing es after with
  | case1 => cases h
  | case2 first c rest hc =>
    obtain ⟨-, rfl⟩ := by simpa using h
    rw [behindSet?, if_pos hc]
  | case3 first c rest hc e n he ih =>
    obtain ⟨r, hr, hafter⟩ := Option.map_eq_some_iff.mp h
    obtain ⟨-, rfl⟩ := by simpa using hafter
    rw [behindSet?, if_neg hc, ← element?_elementLength he, ih hr]
  | case4 => cases h

/-- Where the linter accepts a set, it goes on behind the same bracket. -/
theorem behindSet?_of_ok (h : setFrom origin pos first seen issues cs = .ok (issues', stop)) :
    ∃ after, behindSet? first cs = some after ∧ stop = pos + (cs.length - after.length) := by
  have hstop := setFrom_stop origin pos first seen issues cs
  rw [h] at hstop
  obtain ⟨⟨es, after⟩, hes, hpos⟩ := Option.map_eq_some_iff.mp hstop.symm
  exact ⟨after, behindSet?_of_elements hes, hpos.symm⟩

/-- Where the linter calls a set open, no bracket closes it. -/
theorem behindSet?_of_open
    (h : setFrom origin pos first seen issues cs = .error (.malformed place .openSet)) :
    behindSet? first cs = none := by
  fun_induction setFrom origin pos first seen issues cs with
  | case1 => rw [behindSet?]
  | case2 => cases h
  | case3 pos first seen issues c rest hc name hknown hname ih =>
    simp only [hname, hknown, if_true] at h
    rw [behindSet?, if_neg hc, elementLength, hname]
    exact ih h
  | case4 pos first seen issues c rest hc name hknown hname =>
    simp [hname, hknown, fail] at h
  | case5 pos first seen issues c rest hc range hrev more hname hrange ih =>
    simp only [hname, hrange, hrev, if_true] at h
    rw [behindSet?, if_neg hc, elementLength, hname, hrange]
    exact ih h
  | case6 pos first seen issues c rest hc range hrev more hname hrange ih =>
    simp only [hname, hrange, hrev, if_false] at h
    rw [behindSet?, if_neg hc, elementLength, hname, hrange]
    exact ih h
  | case7 pos first seen issues c rest hc more hname hrange ih =>
    simp only [hname, hrange] at h
    rw [behindSet?, if_neg hc, elementLength, hname, hrange]
    exact ih h

/-- The closing bracket of a set never comes first in it. -/
theorem behindSet?_some (h : behindSet? first cs = some after) :
    ∃ inner, cs = inner ++ ']' :: after ∧ (first = true → inner ≠ []) := by
  fun_induction behindSet? first cs with
  | case1 => cases h
  | case2 first c rest hc =>
    obtain ⟨rfl, rfl⟩ : c = ']' ∧ first = false := by simpa using hc
    obtain rfl : rest = after := by simpa using h
    exact ⟨[], rfl, by simp⟩
  | case3 first c rest hc ih =>
    obtain ⟨inner, hinner, -⟩ := ih h
    refine ⟨c :: (rest.take (elementLength c rest) ++ inner), ?_, by simp⟩
    rw [List.cons_append, List.append_assoc, ← hinner, List.take_append_drop]

theorem className?_text (h : className? cs = some name) :
    ∃ tail, cs = '[' :: ':' :: (name ++ ':' :: ']' :: tail) := by
  unfold className? at h
  split at h
  · obtain ⟨n, hn, rfl⟩ := Option.map_eq_some_iff.mp h
    obtain ⟨tail, htail⟩ := List.isPrefixOf_iff_prefix.mp (Text.find?_some hn).2
    rename_i rest
    refine ⟨tail, ?_⟩
    rw [show ':' :: ']' :: tail = rest.drop n from htail, List.take_append_drop]
  · cases h

/-- The last closing bracket of a text that belongs to an element behind its first character ends a
class. -/
theorem last_in_element (hv : ']' ∉ v) (h : s.length < elementLength c (s ++ ']' :: v)) :
    s.getLast? = some ':' := by
  unfold elementLength at h
  split at h
  · rename_i name hname
    obtain ⟨tail, htail⟩ := className?_text hname
    obtain ⟨-, hrest⟩ := List.cons.inj htail
    have hend : ¬ s.length < name.length + 2 := by
      intro hlt
      have hmem : ']' ∈ (s ++ ']' :: v).drop (s.length + 1) := by
        have hname : ':' :: (name ++ ':' :: ']' :: tail)
            = (':' :: name ++ [':']) ++ ']' :: tail := by
          simp
        rw [hrest, hname, List.drop_append_of_le_length (by simp; omega)]
        simp
      simp at hmem
      exact hv hmem
    have hs := congrArg (List.take (name.length + 2)) hrest
    rw [List.take_append_of_le_length (by omega), List.take_of_length_le (by omega),
      show ':' :: (name ++ ':' :: ']' :: tail) = (':' :: name ++ [':']) ++ ']' :: tail by simp,
      List.take_append_of_le_length (by simp), List.take_of_length_le (by simp)] at hs
    rw [hs, List.getLast?_append]
    rfl
  · split at h
    · rename_i hrange
      obtain _ | ⟨x, _ | ⟨y, s⟩⟩ := s
      · simp [range?] at hrange
      · unfold range? at hrange
        split at hrange
        · simp_all
          grind
        · simp at hrange
      · rw [List.length_cons, List.length_cons] at h
        omega
    · omega

/-- In a set that stays open the last closing bracket comes first or ends a class. -/
theorem last_of_open (h : behindSet? first (s ++ ']' :: v) = none) (hv : ']' ∉ v) :
    (first = true ∧ s = []) ∨ s.getLast? = some ':' := by
  generalize hcs : s ++ ']' :: v = cs at h
  fun_induction behindSet? first cs generalizing s with
  | case1 => simp at hcs
  | case2 => cases h
  | case3 first c rest hc ih =>
    obtain _ | ⟨x, s⟩ := s
    · obtain ⟨rfl, rfl⟩ := by simpa using hcs
      exact .inl ⟨by simpa using hc, rfl⟩
    · obtain ⟨rfl, rfl⟩ : x = c ∧ s ++ ']' :: v = rest := by simpa using hcs
      refine .inr ?_
      by_cases hlen : s.length < elementLength x (s ++ ']' :: v)
      · rw [List.getLast?_cons, last_in_element hv hlen]
        rfl
      · have hlast := ih (List.drop_append_of_le_length (by omega)).symm h
        obtain ⟨hfalse, -⟩ | hlast := hlast
        · cases hfalse
        · rw [← List.take_append_drop (elementLength x (s ++ ']' :: v)) s, ← List.cons_append,
            List.getLast?_append, hlast]
          rfl

/-- A set, from behind its opening bracket on. -/
structure LastSet where
  content : List Char
  /-- What follows the closing bracket, if the set is closed. -/
  after? : Option (List Char)
  deriving Repr, DecidableEq

/-- The last set of a text that is read from the left: a backslash takes the next character with it,
and a bracket begins a set. -/
def lastSet? (cs : List Char) : Option LastSet :=
  match _h : cs with
  | [] => none
  | c :: rest =>
    if c == '\\' then lastSet? (rest.drop 1)
    else if c == '[' then
      match _hset : behindSet? true (rest.drop (caretLength rest)) with
      | none => some ⟨rest, none⟩
      | some after => (lastSet? after).or (some ⟨rest, some after⟩)
    else lastSet? rest
termination_by cs.length
decreasing_by
  · rw [List.length_drop, List.length_cons]
    omega
  · obtain ⟨inner, hinner, -⟩ := behindSet?_some _hset
    have := congrArg List.length hinner
    simp at this ⊢
    omega
  · simp

theorem behindSet?_mem (h : behindSet? first (cs.drop n) = some after) :
    after ⊆ cs ∧ ']' ∈ cs := by
  obtain ⟨inner, hinner, -⟩ := behindSet?_some h
  have hdrop : inner ++ ']' :: after ⊆ cs := hinner ▸ List.drop_subset n cs
  exact ⟨fun x hx => hdrop (by simp [hx]), hdrop (by simp)⟩

theorem lastSet?_content {last : LastSet} (h : lastSet? cs = some last) : last.content ⊆ cs := by
  fun_induction lastSet? cs with
  | case1 => cases h
  | case2 c rest hc ih => exact fun x hx => .tail _ (List.mem_of_mem_drop (ih h hx))
  | case3 c rest hc hopen hset =>
    obtain rfl := by simpa using h
    exact List.subset_cons_self c rest
  | case4 c rest hc hopen after hset ih =>
    rcases Option.or_eq_some_iff.mp h with h | ⟨-, h⟩
    · exact fun x hx => .tail _ ((behindSet?_mem hset).1 (ih h hx))
    · obtain rfl := by simpa using h
      exact List.subset_cons_self c rest
  | case5 c rest hc hopen ih => exact fun x hx => .tail _ (ih h hx)

theorem lastSet?_closed (h : lastSet? cs = some ⟨content, some after⟩) : ']' ∈ cs := by
  fun_induction lastSet? cs with
  | case1 => cases h
  | case2 c rest hc ih => exact .tail _ (List.mem_of_mem_drop (ih h))
  | case3 => simp at h
  | case4 c rest hc hopen after hset ih => exact .tail _ (behindSet?_mem hset).2
  | case5 c rest hc hopen ih => exact .tail _ (ih h)

/-- A text ends inside a set that is still open. -/
def endsInSet (cs : List Char) : Bool :=
  (lastSet? cs).any fun set => set.after?.isNone

end PatternLint.Pattern.Regexp
