import Mathlib.Data.List.TakeWhile
import PatternLint.Proofs.ReportedPlaces

/-! Comments that suppress messages, as they stand in the text. A message about a line is suppressed
by a comment above it that holds a part of the message, if there are only blank lines and comments
between the two, and lines are counted as those of reported places are. -/

namespace PatternLint

namespace Text

variable {p : Char → Bool} {needle cs run rest what : List Char}

/-- What is left when a run is taken away from the front does not go on with it. -/
theorem dropWhile_eq_iff :
    cs.dropWhile p = rest ↔
      ∃ run, (∀ c ∈ run, p c) ∧ (∀ c, rest.head? = some c → p c = false) ∧ cs = run ++ rest := by
  constructor
  · rintro rfl
    refine ⟨cs.takeWhile p, fun c hc => List.mem_takeWhile_imp hc, fun c hc => ?_,
      List.takeWhile_append_dropWhile.symm⟩
    have hnot := List.head?_dropWhile_not p cs
    rw [hc] at hnot
    simpa using hnot
  · rintro ⟨run, hrun, hrest, rfl⟩
    rw [List.dropWhile_append_of_pos hrun]
    cases rest with
    | nil => rfl
    | cons c rest => exact List.dropWhile_cons_of_neg (by simp [hrest c rfl])

/-- Neither end of the text is to be trimmed. -/
structure Trimmed (p : Char → Bool) (what : List Char) : Prop where
  front : ∀ c, what.head? = some c → p c = false
  back : ∀ c, what.getLast? = some c → p c = false

theorem trim_eq_iff (hne : what ≠ []) :
    trim p cs = what ↔ Trimmed p what ∧
      ∃ left right, (∀ c ∈ left, p c) ∧ (∀ c ∈ right, p c) ∧ cs = left ++ what ++ right := by
  constructor
  · intro h
    obtain ⟨left, hleft, hfront, hcs⟩ := dropWhile_eq_iff.mp (rfl : cs.dropWhile p = cs.dropWhile p)
    obtain ⟨right, hright, hback, hrest⟩ :=
      dropWhile_eq_iff.mp (List.reverse_eq_iff.mp h : (cs.dropWhile p).reverse.dropWhile p = _)
    rw [List.head?_reverse] at hback
    rw [List.reverse_eq_iff, List.reverse_append, List.reverse_reverse] at hrest
    refine ⟨⟨fun c hc => hfront c ?_, hback⟩, left, right.reverse, hleft, by simpa using hright, ?_⟩
    · rw [hrest, List.head?_append_of_ne_nil _ hne, hc]
    · rw [List.append_assoc, ← hrest]
      exact hcs
  · rintro ⟨⟨hfront, hback⟩, left, right, hleft, hright, rfl⟩
    have htrimLeft : (left ++ what ++ right).dropWhile p = what ++ right :=
      dropWhile_eq_iff.mpr ⟨left, hleft, fun c hc => hfront c
        (by rwa [List.head?_append_of_ne_nil _ hne] at hc), List.append_assoc _ _ _⟩
    have htrimRight : (what ++ right).reverse.dropWhile p = what.reverse :=
      dropWhile_eq_iff.mpr ⟨right.reverse, by simpa using hright, fun c hc => hback c
        (by rwa [List.head?_reverse] at hc), List.reverse_append⟩
    rw [trim, trimLeft, trimRight, htrimLeft, htrimRight, List.reverse_reverse]

theorem findFrom_isSome_iff {pos : Nat} :
    (findFrom needle pos cs).isSome ↔ needle <:+: cs := by
  induction cs generalizing pos with
  | nil =>
    rw [findFrom, List.infix_nil, ← List.isEmpty_iff]
    split <;> simp_all
  | cons c rest ih =>
    rw [findFrom, List.infix_cons_iff, ← List.isPrefixOf_iff_prefix]
    split <;> simp_all

/-- One text holds another one if that stands somewhere in it. -/
theorem contains_iff : contains needle cs = true ↔ needle <:+: cs :=
  findFrom_isSome_iff

end Text

namespace Report

variable {text line what message : List Char} {number : Nat}

section Comments

/-- Spaces and tabs only. -/
def Blank (line : List Char) : Prop :=
  ∀ c ∈ line, isIndent c

/-- A comment, with nothing but blanks before its semicolon. -/
def Remark (line : List Char) : Prop :=
  ∃ indent rest, Blank indent ∧ line = indent ++ ';' :: rest

/-- A comment that suppresses messages with a text: behind its semicolons stands the mark, and
behind that the text, which begins and ends with characters that are no blanks. -/
structure Suppresses (line what : List Char) : Prop where
  some : what ≠ []
  trimmed : Text.Trimmed isIndent what
  layout : ∃ indent semicolons gap left right, Blank indent ∧ Blank gap ∧ Blank left ∧ Blank right ∧
    semicolons ≠ [] ∧ (∀ c ∈ semicolons, c = ';') ∧
    line = indent ++ semicolons ++ gap ++ suppressionMark ++ left ++ what ++ right

theorem not_isIndent_semicolon : isIndent ';' = false := by decide

theorem commentText?_eq_some_iff {rest : List Char} :
    commentText? line = some rest ↔ ∃ indent semicolons, Blank indent ∧ semicolons ≠ [] ∧
      (∀ c ∈ semicolons, c = ';') ∧ rest.head? ≠ some ';' ∧
        line = indent ++ semicolons ++ rest := by
  constructor
  · intro h
    obtain ⟨indent, hindent, -, hline⟩ :=
      Text.dropWhile_eq_iff.mp (rfl : line.dropWhile isIndent = line.dropWhile isIndent)
    unfold commentText? at h
    split at h
    · rename_i more hmore
      obtain ⟨semicolons, hsemicolons, hrest, hmarks⟩ := Text.dropWhile_eq_iff.mp
        (Option.some.inj h)
      refine ⟨indent, ';' :: semicolons, hindent, List.cons_ne_nil _ _, ?_, fun hhead => ?_, ?_⟩
      · simpa using hsemicolons
      · simpa using hrest ';' hhead
      · rw [hline, hmore, hmarks, List.append_assoc, List.cons_append]
    · cases h
  · rintro ⟨indent, semicolons, hindent, hne, hsemicolons, hrest, rfl⟩
    obtain ⟨c, semicolons, rfl⟩ := List.exists_cons_of_ne_nil hne
    obtain ⟨rfl, hsemicolons⟩ := List.forall_mem_cons.mp hsemicolons
    have hbegins : (indent ++ ';' :: semicolons ++ rest).dropWhile isIndent =
        ';' :: (semicolons ++ rest) :=
      Text.dropWhile_eq_iff.mpr ⟨indent, hindent, fun c hc =>
        Option.some.inj hc ▸ not_isIndent_semicolon,
        List.append_assoc _ _ _⟩
    have hmarks : (semicolons ++ rest).dropWhile (· == ';') = rest :=
      Text.dropWhile_eq_iff.mpr ⟨semicolons, by simpa using hsemicolons, fun c hc => beq_false_of_ne
        fun hc' => hrest (hc' ▸ hc), rfl⟩
    rw [commentText?, hbegins]
    exact congrArg some hmarks

theorem isComment_iff : isComment line = true ↔ Blank line ∨ Remark line := by
  have hblank : line.all isIndent = true ↔ Blank line := List.all_eq_true
  have hremark : (commentText? line).isSome ↔ Remark line := by
    constructor
    · intro h
      obtain ⟨rest, hrest⟩ := Option.isSome_iff_exists.mp h
      obtain ⟨indent, semicolons, hindent, hne, hsemicolons, -, rfl⟩ :=
        commentText?_eq_some_iff.mp hrest
      obtain ⟨c, semicolons, rfl⟩ := List.exists_cons_of_ne_nil hne
      obtain rfl := hsemicolons c List.mem_cons_self
      exact ⟨indent, semicolons ++ rest, hindent, List.append_assoc _ _ _⟩
    · rintro ⟨indent, rest, hindent, rfl⟩
      have hbegins : (indent ++ ';' :: rest).dropWhile isIndent = ';' :: rest :=
        Text.dropWhile_eq_iff.mpr ⟨indent, hindent,
          fun c hc => Option.some.inj hc ▸ not_isIndent_semicolon, rfl⟩
      rw [commentText?, hbegins]
      rfl
  rw [isComment, Bool.or_eq_true, hblank, hremark]

/-- Neither the first character of the mark nor what blanks are before it
continues the semicolons. -/
theorem gap_mark_head? {gap rest : List Char} (hgap : Blank gap) :
    (gap ++ (suppressionMark ++ rest)).head? ≠ some ';' := by
  cases gap with
  | nil => exact fun h => absurd (Option.some.inj h) (by decide)
  | cons c gap =>
    intro h
    have hc : isIndent c := hgap c List.mem_cons_self
    rw [Option.some.inj h, not_isIndent_semicolon] at hc
    cases hc

theorem suppressed?_of_mark {gap rest more : List Char} (hcomment : commentText? line = some rest)
    (hgap : Blank gap) (hrest : rest = gap ++ (suppressionMark ++ more)) :
    suppressed? line = some what ↔ what ≠ [] ∧ Text.trim isIndent more = what := by
  have hmark : rest.dropWhile isIndent = suppressionMark ++ more :=
    Text.dropWhile_eq_iff.mpr ⟨gap, hgap, fun c hc => Option.some.inj hc ▸ (by decide), hrest⟩
  have hstarts : suppressionMark.isPrefixOf (suppressionMark ++ more) = true :=
    List.isPrefixOf_iff_prefix.mpr (List.prefix_append _ _)
  rw [suppressed?, hcomment]
  change (if suppressionMark.isPrefixOf (rest.dropWhile isIndent) = true then _ else none) = _ ↔ _
  rw [hmark, if_pos hstarts, List.drop_left]
  split
  · rename_i hnone
    rw [hnone]
    exact ⟨nofun, fun ⟨hsome, heq⟩ => absurd heq.symm hsome⟩
  · rename_i hsome
    exact ⟨fun h => ⟨Option.some.inj h ▸ hsome, Option.some.inj h⟩, fun h => congrArg some h.2⟩

theorem suppressed?_eq_some_iff : suppressed? line = some what ↔ Suppresses line what := by
  constructor
  · intro h
    obtain ⟨rest, hcomment, h'⟩ := Option.bind_eq_some_iff.mp h
    obtain ⟨indent, semicolons, hindent, hne, hsemicolons, -, hline⟩ :=
      commentText?_eq_some_iff.mp hcomment
    obtain ⟨gap, hgap, -, hrest⟩ :=
      Text.dropWhile_eq_iff.mp (rfl : rest.dropWhile isIndent = rest.dropWhile isIndent)
    dsimp only at h'
    split at h'
    · rename_i hstarts
      obtain ⟨more, hmore⟩ := List.isPrefixOf_iff_prefix.mp hstarts
      rw [← hmore] at hrest
      obtain ⟨hsome, htrim⟩ := (suppressed?_of_mark hcomment hgap hrest).mp h
      obtain ⟨htrimmed, left, right, hleft, hright, hwhat⟩ := (Text.trim_eq_iff hsome).mp htrim
      refine ⟨hsome, htrimmed, indent, semicolons, gap, left, right, hindent, hgap, hleft, hright,
        hne, hsemicolons, ?_⟩
      rw [hline, hrest, hwhat]
      simp only [List.append_assoc]
    · cases h'
  · rintro ⟨hsome, htrimmed, indent, semicolons, gap, left, right, hindent, hgap, hleft, hright,
      hne, hsemicolons, rfl⟩
    have hcomment : commentText? (indent ++ semicolons ++ gap ++ suppressionMark ++ left ++ what ++
        right) = some (gap ++ (suppressionMark ++ (left ++ what ++ right))) :=
      commentText?_eq_some_iff.mpr ⟨indent, semicolons, hindent, hne, hsemicolons,
        gap_mark_head? hgap, by simp only [List.append_assoc]⟩
    exact (suppressed?_of_mark hcomment hgap rfl).mpr
      ⟨hsome, (Text.trim_eq_iff hsome).mpr ⟨htrimmed, left, right, hleft, hright, rfl⟩⟩

end Comments

section Lines

/-- The line with a number: it begins at a place with that line and column zero, and goes on up to
the next line end or the end of the text. -/
def IsLine (text : List Char) (number : Nat) (line : List Char) : Prop :=
  ∃ before behind, text = before ++ line ++ behind ∧ '\n' ∉ line ∧
    (∀ c, behind.head? = some c → c = '\n') ∧ Reader.lineColumn text before.length = (number, 0)

theorem splitFrom_pieces (pieces : List (List Char)) (piece text : List Char) :
    Text.splitFrom ['\n'] 0 pieces piece text =
      pieces.reverse ++ Text.splitFrom ['\n'] 0 [] piece text := by
  induction text generalizing pieces piece with
  | nil => simp [Text.splitFrom]
  | cons c text ih =>
    rw [splitFrom_cons, splitFrom_cons]
    split
    · rw [ih, ih [piece.reverse], List.reverse_cons, List.append_assoc]
      rfl
    · exact ih pieces (c :: piece)

/-- The first line is read up to its end. -/
theorem lines_unended_append (h : '\n' ∉ line) (text : List Char) :
    lines (line ++ text) = Text.splitFrom ['\n'] 0 [] line.reverse text := by
  obtain ⟨above, hsplit, hcount, -⟩ := splitFrom_append [] [] line text List.not_mem_nil
  rw [List.append_nil, takeWhile_unended (by simpa using h)] at hsplit
  rw [List.count_eq_zero.mpr h] at hcount
  obtain rfl : above = [] := List.length_eq_zero_iff.mp hcount
  exact hsplit

theorem lines_unended (h : '\n' ∉ line) : lines line = [line] := by
  have hlines := lines_unended_append h []
  rw [List.append_nil] at hlines
  rw [hlines, Text.splitFrom, List.reverse_reverse, List.reverse_singleton]

theorem lines_ended (h : '\n' ∉ line) (text : List Char) :
    lines (line ++ '\n' :: text) = line :: lines text := by
  rw [lines_unended_append h, splitFrom_cons, if_pos rfl, splitFrom_pieces, List.reverse_reverse]
  rfl

/-- Nothing before a place, or whole lines. -/
def Ended (before : List Char) : Prop :=
  ∀ c, before.getLast? = some c → c = '\n'

theorem Ended.eq_nil {before : List Char} (h : Ended before) (hcount : before.count '\n' = 0) :
    before = [] := by
  rcases List.eq_nil_or_concat before with hnil | ⟨cs, c, hconcat⟩
  · exact hnil
  · rw [List.concat_eq_append] at hconcat
    subst hconcat
    obtain rfl := h c List.getLast?_concat
    simp at hcount

theorem ended_append_cons (first before : List Char) :
    Ended (first ++ '\n' :: before) ↔ Ended before := by
  cases before with
  | nil => simp [Ended]
  | cons c rest => simp [Ended, List.getLast?_cons_cons]

theorem lineColumn_eq_iff {before rest : List Char} :
    Reader.lineColumn (before ++ rest) before.length = (number, 0) ↔
      before.count '\n' + 1 = number ∧ Ended before := by
  have hcolumn : (before.reverse.takeWhile (· != '\n')).length = 0 ↔ Ended before := by
    rw [List.length_eq_zero_iff, Ended, ← List.head?_reverse]
    cases before.reverse with
    | nil => simp
    | cons c rest => simp [List.takeWhile_cons]
  rw [← hcolumn]
  simp [Reader.lineColumn]

/-- A line of a text by its index, with what stands before and behind it. -/
theorem getElem?_lines {n : Nat} :
    (lines text)[n]? = some line ↔ ∃ before behind, text = before ++ line ++ behind ∧ '\n' ∉ line ∧
      (∀ c, behind.head? = some c → c = '\n') ∧ before.count '\n' = n ∧ Ended before := by
  constructor
  · intro h
    induction n generalizing text with
    | zero =>
      by_cases hended : '\n' ∈ text
      · obtain ⟨first, rest, rfl, hfirst⟩ := List.eq_append_cons_of_mem hended
        rw [lines_ended hfirst, List.getElem?_cons_zero] at h
        cases h
        exact ⟨[], '\n' :: rest, rfl, hfirst, fun c hc => (Option.some.inj hc).symm, rfl, nofun⟩
      · rw [lines_unended hended, List.getElem?_cons_zero] at h
        cases h
        exact ⟨[], [], (List.append_nil _).symm, hended, nofun, rfl, nofun⟩
    | succ n ih =>
      by_cases hended : '\n' ∈ text
      · obtain ⟨first, rest, rfl, hfirst⟩ := List.eq_append_cons_of_mem hended
        rw [lines_ended hfirst, List.getElem?_cons_succ] at h
        obtain ⟨before, behind, rfl, hline, hbehind, hcount, hbefore⟩ := ih h
        refine ⟨first ++ '\n' :: before, behind, ?_, hline, hbehind, ?_,
          (ended_append_cons first before).mpr hbefore⟩
        · simp only [List.append_assoc, List.cons_append]
        · rw [List.count_append, List.count_cons_self, List.count_eq_zero.mpr hfirst, hcount,
            Nat.zero_add]
      · rw [lines_unended hended] at h
        cases h
  · rintro ⟨before, behind, rfl, hline, hbehind, hcount, hbefore⟩
    induction n generalizing before with
    | zero =>
      rw [hbefore.eq_nil hcount, List.nil_append]
      cases behind with
      | nil => rw [List.append_nil, lines_unended hline, List.getElem?_cons_zero]
      | cons c behind =>
        rw [hbehind c rfl, lines_ended hline, List.getElem?_cons_zero]
    | succ n ih =>
      have hmem : '\n' ∈ before := List.count_pos_iff.mp (by omega)
      obtain ⟨first, rest, rfl, hfirst⟩ := List.eq_append_cons_of_mem hmem
      rw [List.count_append, List.count_cons_self, List.count_eq_zero.mpr hfirst] at hcount
      rw [List.append_assoc, List.append_assoc, List.cons_append, lines_ended hfirst,
        List.getElem?_cons_succ, ← List.append_assoc]
      exact ih rest (by omega) ((ended_append_cons first rest).mp hbefore)

theorem isLine_iff : IsLine text number line ↔
    1 ≤ number ∧ (lines text)[number - 1]? = some line := by
  constructor
  · rintro ⟨before, behind, rfl, hline, hbehind, hplace⟩
    rw [List.append_assoc, lineColumn_eq_iff] at hplace
    obtain ⟨rfl, hbefore⟩ := hplace
    exact ⟨Nat.le_add_left _ _,
      getElem?_lines.mpr ⟨before, behind, rfl, hline, hbehind, rfl, hbefore⟩⟩
  · rintro ⟨hnumber, h⟩
    obtain ⟨before, behind, rfl, hline, hbehind, hcount, hbefore⟩ := getElem?_lines.mp h
    refine ⟨before, behind, rfl, hline, hbehind, ?_⟩
    rw [List.append_assoc, lineColumn_eq_iff]
    exact ⟨by omega, hbefore⟩

end Lines

section Search

theorem any_suppressed?_iff :
    (suppressed? line).any (Text.contains · message) = true ↔
      ∃ what, Suppresses line what ∧ what <:+: message := by
  simp only [Option.any_eq_true, suppressed?_eq_some_iff, Text.contains_iff]

/-- The search goes up to a suppressing comment and passes comments and blank lines only; one that
suppresses other messages is a comment too. -/
theorem isSuppressedBelow_iff {above : List (List Char)} :
    isSuppressedBelow message above = true ↔
      ∃ near line far, above = near ++ line :: far ∧ (∀ l ∈ near, Blank l ∨ Remark l) ∧
        ∃ what, Suppresses line what ∧ what <:+: message := by
  induction above with
  | nil => simp [isSuppressedBelow]
  | cons first above ih =>
    rw [isSuppressedBelow]
    split
    · rename_i hfirst
      exact iff_of_true rfl ⟨[], first, above, rfl, nofun, any_suppressed?_iff.mp hfirst⟩
    · rename_i hfirst
      rw [Bool.and_eq_true, isComment_iff, ih]
      constructor
      · rintro ⟨hcomment, near, line, far, rfl, hnear, hwhat⟩
        exact ⟨first :: near, line, far, rfl, List.forall_mem_cons.mpr ⟨hcomment, hnear⟩, hwhat⟩
      · rintro ⟨near, line, far, heq, hnear, hwhat⟩
        cases near with
        | nil =>
          cases heq
          exact absurd (any_suppressed?_iff.mpr hwhat) hfirst
        | cons l near =>
          cases heq
          obtain ⟨hl, hnear⟩ := List.forall_mem_cons.mp hnear
          exact ⟨hl, near, line, far, rfl, hnear, hwhat⟩

variable {ls : List (List Char)} {m : Nat} {between wanted : List Char → Prop}

theorem take_eq_append_cons {k : Nat} (hk : k < m) (h : ls[k]? = some line) :
    ls.take m = ls.take k ++ line :: (ls.take m).drop (k + 1) := by
  obtain ⟨hlt, hget⟩ := List.getElem?_eq_some_iff.mp ((List.getElem?_take_of_lt hk).trans h)
  have hwhole := List.take_append_drop k (ls.take m)
  rw [List.take_take, Nat.min_eq_left (Nat.le_of_lt hk), List.drop_eq_getElem_cons hlt,
    hget] at hwhole
  exact hwhole.symm

/-- A line that is reached from the last of the first lines upwards, by its index. -/
theorem reverse_take_split_iff :
    (∃ near line far, (ls.take m).reverse = near ++ line :: far ∧ (∀ l ∈ near, between l) ∧
        wanted line) ↔
      ∃ k < m, ∃ line, ls[k]? = some line ∧ wanted line ∧
        ∀ j l, k < j → j < m → ls[j]? = some l → between l := by
  constructor
  · rintro ⟨near, line, far, heq, hnear, hline⟩
    rw [List.reverse_eq_iff, List.reverse_append, List.reverse_cons, List.append_assoc,
      List.singleton_append] at heq
    -- the line stands behind all lines that are farther away
    have hlength := congrArg List.length heq
    rw [List.length_take, List.length_append, List.length_cons, List.length_reverse] at hlength
    have hget (i : Nat) (hi : i < m) : ls[i]? = (far.reverse ++ line :: near.reverse)[i]? := by
      rw [← heq, List.getElem?_take_of_lt hi]
    refine ⟨far.length, by omega, line, ?_, hline, fun j l hj hjm hl => ?_⟩
    · rw [hget _ (by omega), List.getElem?_append_right (by simp), List.length_reverse,
        Nat.sub_self, List.getElem?_cons_zero]
    · obtain ⟨i, rfl⟩ := Nat.exists_eq_add_of_lt hj
      rw [hget _ hjm, List.getElem?_append_right (by rw [List.length_reverse]; omega),
        List.length_reverse, show far.length + i + 1 - far.length = i + 1 by omega,
        List.getElem?_cons_succ] at hl
      exact hnear l (List.mem_reverse.mp (List.mem_of_getElem? hl))
  · rintro ⟨k, hk, line, hget, hline, hbetween⟩
    refine ⟨((ls.take m).drop (k + 1)).reverse, line, (ls.take k).reverse, ?_,
      fun l hl => ?_, hline⟩
    · rw [List.reverse_eq_iff, List.reverse_append, List.reverse_cons, List.append_assoc,
        List.reverse_reverse, List.reverse_reverse]
      exact take_eq_append_cons hk hget
    · obtain ⟨i, hi⟩ := List.mem_iff_getElem?.mp (List.mem_reverse.mp hl)
      rw [List.getElem?_drop, List.getElem?_take] at hi
      split at hi
      · exact hbetween (k + 1 + i) l (by omega) (by omega) hi
      · cases hi

end Search

/-- Suppression is exact: a message about a line is suppressed if and only if a line above it is a
comment that suppresses it, and those between the two are blank or comments. -/
theorem isSuppressed_iff (text : List Char) (number : Nat) (message : String) :
    isSuppressed (lines text) number message = true ↔
      ∃ k < number, ∃ line what, IsLine text k line ∧ Suppresses line what ∧
        what <:+: message.toList ∧
        ∀ j between, k < j → j < number → IsLine text j between →
          Blank between ∨ Remark between := by
  simp only [isLine_iff]
  rw [isSuppressed, isSuppressedBelow_iff, reverse_take_split_iff]
  -- indices begin at zero, the numbers of lines at one
  constructor
  · rintro ⟨k, hk, line, hline, ⟨what, hwhat, hmem⟩, hbetween⟩
    exact ⟨k + 1, by omega, line, what, ⟨by omega, hline⟩, hwhat, hmem,
      fun j l hkj hj hl => hbetween (j - 1) l (by omega) (by omega) hl.2⟩
  · rintro ⟨k, hk, line, what, ⟨hk', hline⟩, hwhat, hmem, hbetween⟩
    exact ⟨k - 1, by omega, line, hline, ⟨what, hwhat, hmem⟩,
      fun j l hkj hj hl => hbetween (j + 1) l (by omega) (by omega) ⟨by omega, hl⟩⟩

end Report

end PatternLint
