import Mathlib.Algebra.GroupWithZero.Nat
import PatternLint.Proofs.CodePositions
import PatternLint.Proofs.ResolvedPlaces
import PatternLint.Proofs.StrictWalk
import PatternLint.Report.Log

/-! Lines and columns. A line and a column tell an offset of a text: the lines before it, each with
its line end, and the column add up to the offset. -/

namespace PatternLint.Report

/-- A line, counted from one, and a column tell an offset of a text. -/
structure Locates (text : List Char) (line column offset : Nat) : Prop where
  line_pos : 1 ≤ line
  line_le : line ≤ (lines text).length
  column_le : ∀ cs, (lines text)[line - 1]? = some cs → column ≤ cs.length
  sum : (((lines text).take (line - 1)).map (·.length + 1)).sum + column = offset

variable {text piece : List Char} {pieces : List (List Char)} {pos : Nat}

theorem takeWhile_behind (cs more : List Char) :
    (cs ++ '\n' :: more).takeWhile (· != '\n') = cs.takeWhile (· != '\n') := by
  induction cs with
  | nil => rfl
  | cons c cs ih => rw [List.cons_append, List.takeWhile_cons, List.takeWhile_cons, ih]

theorem takeWhile_unended (h : '\n' ∉ piece) : piece.takeWhile (· != '\n') = piece := by
  have hall : ∀ c ∈ piece, c != '\n' := fun c hc => bne_iff_ne.2 fun h' => h (h' ▸ hc)
  have happend : (piece ++ []).takeWhile (· != '\n') = piece ++ [].takeWhile (· != '\n') :=
    List.takeWhile_append_of_pos hall
  simpa using happend

theorem splitFrom_cons (c : Char) (text : List Char) :
    Text.splitFrom ['\n'] 0 pieces piece (c :: text) =
      if c = '\n' then Text.splitFrom ['\n'] 0 (piece.reverse :: pieces) [] text
      else Text.splitFrom ['\n'] 0 pieces (c :: piece) text := by
  have hstart : ['\n'].isPrefixOf (c :: text) = true ↔ c = '\n' := by
    rw [List.isPrefixOf, List.isPrefixOf, Bool.and_true, beq_iff_eq]
    exact eq_comm
  rw [Text.splitFrom]
  simp only [hstart]
  rfl

/-- Cutting a text into lines comes to a place with one piece for each line end, the rest of the
last line, and no character lost. -/
theorem splitFrom_append (pieces : List (List Char)) (piece before text : List Char)
    (hpiece : '\n' ∉ piece) :
    let rest := (before.reverse ++ piece).takeWhile (· != '\n')
    ∃ above, Text.splitFrom ['\n'] 0 pieces piece (before ++ text) =
        Text.splitFrom ['\n'] 0 above rest text ∧
      above.length = pieces.length + before.count '\n' ∧
      (above.map (·.length + 1)).sum + rest.length =
        (pieces.map (·.length + 1)).sum + piece.length + before.length := by
  induction before generalizing pieces piece with
  | nil =>
    rw [List.reverse_nil, List.nil_append, takeWhile_unended hpiece]
    exact ⟨pieces, rfl, rfl, rfl⟩
  | cons c before ih =>
    rw [List.reverse_cons, List.append_assoc, List.singleton_append, List.cons_append,
      splitFrom_cons]
    by_cases hc : c = '\n'
    · subst hc
      obtain ⟨above, hsplit, hcount, hsum⟩ :=
        ih (piece.reverse :: pieces) [] List.not_mem_nil
      rw [List.append_nil] at hsplit hsum
      rw [takeWhile_behind, if_pos rfl]
      refine ⟨above, hsplit, ?_, ?_⟩
      · rw [hcount, List.length_cons, List.count_cons_self]
        omega
      · rw [hsum, List.map_cons, List.sum_cons, List.length_reverse, List.length_cons,
          List.length_nil]
        omega
    · have hpiece' : '\n' ∉ c :: piece := by simp [hpiece, Ne.symm hc]
      obtain ⟨above, hsplit, hcount, hsum⟩ := ih pieces (c :: piece) hpiece'
      rw [if_neg hc]
      refine ⟨above, hsplit, ?_, ?_⟩
      · rw [hcount, List.count_cons_of_ne hc]
      · rw [hsum, List.length_cons, List.length_cons]
        omega

/-- The line that was begun goes on, and other lines come behind it. -/
theorem splitFrom_behind (text : List Char) (pieces : List (List Char)) (piece : List Char) :
    ∃ rest behind, Text.splitFrom ['\n'] 0 pieces piece text =
      pieces.reverse ++ (piece.reverse ++ rest) :: behind := by
  induction text generalizing pieces piece with
  | nil => exact ⟨[], [], by simp [Text.splitFrom]⟩
  | cons c text ih =>
    rw [splitFrom_cons]
    split
    · obtain ⟨rest, behind, h⟩ := ih (piece.reverse :: pieces) []
      exact ⟨[], rest :: behind, by simpa using h⟩
    · obtain ⟨rest, behind, h⟩ := ih pieces (c :: piece)
      exact ⟨c :: rest, behind, by simpa using h⟩

/-- The line and the column of a place tell its offset. -/
theorem lineColumn_locates (h : pos ≤ text.length) :
    Locates text (Reader.lineColumn text pos).1 (Reader.lineColumn text pos).2 pos := by
  obtain ⟨above, hsplit, hcount, hsum⟩ := splitFrom_append [] [] (text.take pos) (text.drop pos)
    List.not_mem_nil
  rw [List.append_nil] at hsplit hsum
  obtain ⟨more, behind, hbehind⟩ := splitFrom_behind (text.drop pos) above
    ((text.take pos).reverse.takeWhile (· != '\n'))
  have hlines : lines text = above.reverse ++
      (((text.take pos).reverse.takeWhile (· != '\n')).reverse ++ more) :: behind := by
    rw [← hbehind, ← hsplit, List.take_append_drop]
    rfl
  have hlength : (text.take pos).length = pos := List.length_take_of_le h
  have hline : (Reader.lineColumn text pos).1 = above.length + 1 := by
    rw [hcount]
    simp [Reader.lineColumn]
  have hcolumn : (Reader.lineColumn text pos).2 =
      ((text.take pos).reverse.takeWhile (· != '\n')).length := by
    simp [Reader.lineColumn, hlength]
  rw [hline, hcolumn]
  refine ⟨by omega, ?_, ?_, ?_⟩
  · simp [hlines]
  · intro cs hcs
    rw [hlines, Nat.add_sub_cancel, List.getElem?_append_right (by simp), List.length_reverse,
      Nat.sub_self] at hcs
    simp [← Option.some.inj hcs]
  · rw [hlength] at hsum
    simpa [hlines] using hsum

end PatternLint.Report

/-! Diagnostics tell places of the text. What a walk reports is about parts of a form that was
read, or about their characters, whatever indices a checker makes up; and a read error is about a
place that reading came to. -/

namespace PatternLint.Report

variable {file : String} {text : List Char} {log : Log} {offset : Nat} {message : String}

/-- The log is as it should be, and tells of places of the text only. -/
structure Log.Inside (file : String) (text : List Char) (log : Log) : Prop where
  kept : log.Kept file text
  places : ∀ key ∈ log.seen, key.1 ≤ text.length

theorem Log.inside_empty : Log.empty.Inside file text :=
  ⟨kept_empty, List.forall_mem_nil _⟩

theorem Log.Inside.add (h : log.Inside file text) (hoffset : offset ≤ text.length)
    (message : String) : (log.add file text offset message).Inside file text := by
  refine ⟨h.kept.add offset message, fun key hkey => ?_⟩
  rcases mem_seen_add.mp hkey with rfl | hkey
  · exact hoffset
  · exact h.places key hkey

theorem Log.Inside.located (h : log.Inside file text) {d : Diagnostic} (hd : d ∈ log.diagnostics) :
    d.offset ≤ text.length ∧ Locates text d.line d.column d.offset := by
  obtain ⟨heq, hseen, -⟩ := h.kept.mem_diagnostics.mp hd
  have hplace : d.offset ≤ text.length := h.places d.key hseen
  refine ⟨hplace, ?_⟩
  rw [heq]
  exact lineColumn_locates hplace

end PatternLint.Report

namespace PatternLint.Analysis

open Reader (Path)
open WalkRules (Lawful)

variable {doc : Document} {form part : Value} {start offset pos : Nat} {path : Path}
  {index : Option Int}
  {message : String} {refusal : Fault} {w : Findings} {α : Type} {m : Analyze α}
  {Q : Findings → α → Prop}

/-- Nothing is asked but that all reports are about places of the text. -/
def inside (doc : Document) : WalkRules where
  Fine f := f.log.Inside doc.file doc.text
  Later _ _ := True
  refl _ := trivial
  trans _ _ := trivial
  Stands _ _ _ := True
  Own _ _ := True
  Code _ := True
  Result _ := True

theorem inside_quiet (h : Quiet m) (hQ : ∀ s a, Q s a) : (inside doc).Goes w Q m := by
  intro s _ hs
  have hs' : (m s).2.log.Inside doc.file doc.text := by
    rw [h s]
    exact hs
  exact ⟨trivial, hs', fun a _ => hQ _ a⟩

theorem defineGlobal_quiet (name : String) (expr : Value) : Quiet (defineGlobal doc name expr) := by
  intro s
  rw [defineGlobal, Analyze.bind_apply]
  change ((if s.store.globals.contains name then _ else _ : Analyze Unit) s).2.log = s.log
  split
  · have hvalue : Quiet (value doc expr none []) := fun _ => rfl
    exact hvalue.bind (fun _ _ => rfl) s
  · rfl

/-- A character of a string stands where the string does. -/
theorem Call.place_inside {call : Call}
    (h : ∀ pos, Reader.resolve doc.text call.offset call.path = .ok pos → pos ≤ doc.text.length)
    (hplace : call.place doc.text = .ok pos) : pos ≤ doc.text.length := by
  unfold Call.place at hplace
  obtain ⟨resolved, hresolved, hplace⟩ := Reader.bind_ok hplace
  have hinside := h resolved hresolved
  split at hplace
  · exact Reader.stringPosition_inside hinside hplace
  · cases hplace
    exact hinside

theorem inside_report
    (h : ∀ pos, Reader.resolve doc.text offset path = .ok pos → pos ≤ doc.text.length) :
    (inside doc).Does w (report doc message offset path index) := by
  intro s _ hs
  rw [report_apply]
  split
  · rename_i pos hplace
    exact ⟨trivial, hs.add (Call.place_inside h hplace) message, fun _ _ => trivial⟩
  · exact ⟨trivial, hs, nofun⟩

open Classical in
/-- A walk through a form that was read, if it may only report about parts of it. -/
theorem inside_lawful (hform : (form, start) ∈ (Reader.read doc.text).forms) :
    @Lawful (inside doc) (.strict form start refusal) doc :=
  letI : Conduct := .strict form start refusal
  { stands_later := fun _ _ => trivial
    stands_mono := fun _ _ => trivial
    own_later := fun _ _ => trivial
    code_nil := trivial
    code_list := fun _ _ _ => trivial
    code_dotted := fun _ _ _ => trivial
    code_cdr := fun _ => trivial
    result_unknown := trivial
    site := fun w site => .ite (fun _ => .done) fun _ => .fail
    report := by
      intro w message text offset path index
      refine .ite (fun h => ?_) fun _ => .fail
      obtain ⟨part, ⟨rfl, hpart⟩, -⟩ := h
      exact inside_report fun pos => Reader.resolve_inside hform hpart
    value := fun _ _ => inside_quiet (fun _ => rfl) fun _ _ => trivial
    structural := fun _ _ => inside_quiet (fun _ => rfl) fun _ _ => trivial
    newFrame := fun _ _ => inside_quiet (fun _ => rfl) fun _ _ => ⟨trivial, trivial⟩
    define := fun _ _ _ => inside_quiet (fun _ => rfl) fun _ _ => trivial
    set := fun _ _ _ => inside_quiet (fun _ => rfl) fun _ _ => trivial
    global := fun _ => inside_quiet (defineGlobal_quiet _ _) fun _ _ => trivial
    checked := fun _ _ _ => inside_quiet (fun _ => rfl) fun _ _ => trivial }

/-- The walk would be the same if it gave up at a report that is not about a part of the form. -/
theorem inside_top (hform : (form, offset) ∈ (Reader.read doc.text).forms) :
    (inside doc).Does w (visitTop doc form offset) := by
  let strict : Conduct := .strict form offset (.signal .outOfRange)
  have hvisits : (inside doc).Visits (@visit strict doc maxDepth 0) :=
    (inside_lawful hform).visits maxDepth 0
  have hsame : ∀ env, @visit strict doc maxDepth 0 form ⟨offset, [], env, []⟩ =
      @visit .plain doc maxDepth 0 form ⟨offset, [], env, []⟩ :=
    fun env => visit_strict maxDepth 0 form _ (.inr ⟨rfl, rfl⟩)
  refine .bind (inside_quiet (fun _ => rfl) fun _ _ => trivial) fun t env _ _ => ?_
  rw [← hsame env]
  exact Lawful.untilTooDeep (hvisits t form _ trivial trivial)

theorem inside_all {forms : List (Value × Nat)}
    (h : ∀ form ∈ forms, form ∈ (Reader.read doc.text).forms) :
    (inside doc).Does w (visitAll doc forms) := by
  induction forms generalizing w with
  | nil => exact .done
  | cons form rest ih =>
    obtain ⟨hform, hrest⟩ := List.forall_mem_cons.mp h
    exact .bind (inside_top hform) fun _ _ _ _ => ih hrest

theorem read_fault_founded {text : List Char} {f : Reader.Fault}
    (h : (Reader.read text).fault = some f) : f.Founded text true := by
  obtain ⟨contents, hfounded, hread⟩ :=
    Reader.Reached.concludes (.inl (Reader.On.start text)) []
  refine hfounded f ?_
  rw [← hread text.length text.length (Nat.le_refl _) (Nat.le_refl _)]
  exact h

theorem inside_fault {fault : Option Reader.Fault}
    (h : ∀ f, fault = some f → f.Founded doc.text true) :
    (inside doc).Does w (Scan.reportFault doc fault) := by
  unfold Scan.reportFault
  split
  · exact .done
  · exact .fail
  · exact inside_report fun pos => Reader.resolve_nil_inside (h _ rfl)
  · exact inside_report fun pos => Reader.resolve_nil_inside (h _ rfl).2

theorem inside_analysis : (inside doc).Does w (Scan.analysis doc) := by
  refine .bind (inside_fault fun f => read_fault_founded) fun t _ _ _ => ?_
  refine .bind (inside_quiet (collectForms_quiet _) fun _ _ => trivial) fun t _ _ _ => ?_
  exact inside_all fun form => id

/-- The diagnostics of a text come in the order of their offsets. Each is about a place of the text,
and its line and column tell the offset of that place. -/
theorem scan_located {r : Scan.Result} (h : Scan.scan doc = .ok r) :
    r.diagnostics.Pairwise (fun a b => a.offset ≤ b.offset) ∧
      ∀ d ∈ r.diagnostics, d.offset ≤ doc.text.length ∧
        Report.Locates doc.text d.line d.column d.offset := by
  unfold Scan.scan at h
  split at h
  · cases h
  · rename_i t hrun
    cases h
    have hgoes : (inside doc).Does .empty (Scan.analysis doc) := inside_analysis
    have hinside := (hgoes .empty trivial Report.Log.inside_empty).2.1
    rw [hrun] at hinside
    refine ⟨?_, fun d hd => hinside.located (List.mem_mergeSort.mp hd)⟩
    have hsorted : (t.log.diagnostics.mergeSort fun a b => a.offset ≤ b.offset).Pairwise
        fun a b => decide (a.offset ≤ b.offset) = true :=
      List.pairwise_mergeSort (fun a b c hab hbc => by simp only [decide_eq_true_eq] at *; omega)
        (fun a b => by simp only [Bool.or_eq_true, decide_eq_true_eq]; omega) _
    exact hsorted.imp of_decide_eq_true

/-- A text that ends within a list, and a checker that complains about a
character before the first. -/
def openText : Document :=
  ⟨"a.el", "(looking-at \"b\")\n(".toList, fun _ => .ok [(-1, "bad")], fun _ => .ok [], 10⟩

theorem scan_located_open :
    ∃ r, Scan.scan openText = .ok r ∧ r.diagnostics.length = 2 ∧
      r.diagnostics.Pairwise (fun a b => a.offset ≤ b.offset) ∧
      ∀ d ∈ r.diagnostics, d.offset ≤ openText.text.length ∧
        Report.Locates openText.text d.line d.column d.offset := by
  have hended : (Scan.analysis openText .empty).1.toOption = some () := by decide +kernel
  have hplaces : (Scan.analysis openText .empty).2.log.diagnostics.map
      (fun d => (d.offset, d.line, d.column)) = [(17, 2, 0), (14, 1, 14)] := by
    decide +kernel
  rcases hrun : Scan.analysis openText .empty with ⟨_ | _, s⟩ <;> rw [hrun] at hended hplaces
  · cases hended
  · have hscan : Scan.scan openText =
        .ok ⟨s.log.diagnostics.mergeSort fun a b => a.offset ≤ b.offset,
          s.log.suppressed, 1⟩ := by
      rw [Scan.scan, hrun]
    have hlength := congrArg List.length hplaces
    rw [List.length_map] at hlength
    exact ⟨_, hscan, (List.length_mergeSort _).trans hlength, scan_located hscan⟩

end PatternLint.Analysis
