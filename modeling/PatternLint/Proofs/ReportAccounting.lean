import Mathlib.Data.Finset.Card
import Mathlib.Data.Finset.Dedup
import PatternLint.Analysis.Document
import PatternLint.Proofs.CautiousWalk

/-! What a log tells of the reports that were made: each place with its message is accounted for
once, as a diagnostic or as a suppressed one, in whatever order the reports came. -/

namespace PatternLint.Report

variable (file : String) (text : List Char)

/-- Whether a message about a place is suppressed at the line of the place. -/
def hidden (key : Nat × String) : Bool :=
  isSuppressed (lines text) (Reader.lineColumn text key.1).1 key.2

def diagnosticAt (key : Nat × String) : Diagnostic :=
  ⟨file, key.1, (Reader.lineColumn text key.1).1, (Reader.lineColumn text key.1).2, key.2⟩

def Diagnostic.key (d : Diagnostic) : Nat × String :=
  (d.offset, d.message)

/-- The diagnostics and the count of suppressed ones are what the places and messages
seen so far make them. -/
structure Log.Kept (log : Log) : Prop where
  seen : log.seen.Nodup
  diagnostics :
    log.diagnostics = (log.seen.reverse.filter (!hidden text ·)).map (diagnosticAt file text)
  suppressed : log.suppressed = log.seen.countP (hidden text)

variable {file text} {log log' : Log} {offset : Nat} {message : String} {keys : List (Nat × String)}

@[simp]
theorem key_diagnosticAt (key : Nat × String) : (diagnosticAt file text key).key = key :=
  rfl

theorem Log.kept_empty : Log.empty.Kept file text :=
  ⟨.nil, rfl, rfl⟩

theorem Log.Kept.add (h : log.Kept file text) (offset : Nat) (message : String) :
    (log.add file text offset message).Kept file text := by
  by_cases hseen : (offset, message) ∈ log.seen
  · rwa [Log.add_of_mem hseen]
  · have hnodup : ((offset, message) :: log.seen).Nodup := List.nodup_cons.mpr ⟨hseen, h.seen⟩
    simp only [Log.add, hseen, if_false]
    split
    · rename_i hs
      have hkey : hidden text (offset, message) = true := hs
      refine ⟨hnodup, ?_, ?_⟩
      · simp [h.diagnostics, hkey]
      · simp [h.suppressed, hkey]
    · rename_i hs
      have hkey : hidden text (offset, message) = false := Bool.eq_false_iff.mpr hs
      refine ⟨hnodup, ?_, ?_⟩
      · simp [h.diagnostics, hkey, diagnosticAt]
      · simp [h.suppressed, hkey]

theorem Log.mem_seen_add {key : Nat × String} :
    key ∈ (log.add file text offset message).seen ↔ key = (offset, message) ∨ key ∈ log.seen := by
  by_cases hseen : (offset, message) ∈ log.seen
  · rw [Log.add_of_mem hseen]
    exact ⟨.inr, fun h => h.elim (· ▸ hseen) id⟩
  · simp only [Log.add, hseen, if_false]
    split <;> exact List.mem_cons

namespace Log.Kept

variable (h : log.Kept file text)

include h

theorem length_add_suppressed : log.diagnostics.length + log.suppressed = log.seen.length := by
  rw [h.diagnostics, h.suppressed, List.length_map, ← List.countP_eq_length_filter,
    List.countP_reverse, List.length_eq_countP_add_countP (hidden text), Nat.add_comm]
  simp

theorem mem_diagnostics {d : Diagnostic} : d ∈ log.diagnostics ↔
    d = diagnosticAt file text d.key ∧ d.key ∈ log.seen ∧ hidden text d.key = false := by
  rw [h.diagnostics, List.mem_map]
  constructor
  · rintro ⟨key, hkey, rfl⟩
    simpa using hkey
  · rintro ⟨hd, hseen, hhidden⟩
    exact ⟨d.key, by simp [hseen, hhidden], hd.symm⟩

theorem keys_nodup : (log.diagnostics.map Diagnostic.key).Nodup := by
  rw [h.diagnostics, List.map_map]
  refine List.Nodup.map (fun _ _ => id) ?_
  exact (List.nodup_reverse.mpr h.seen).filter _

/-- Two logs that saw the same differ in the order of the diagnostics only. -/
theorem perm (h' : log'.Kept file text) (hseen : log'.seen.Perm log.seen) :
    log'.diagnostics.Perm log.diagnostics ∧ log'.suppressed = log.suppressed := by
  rw [h.diagnostics, h'.diagnostics, h.suppressed, h'.suppressed]
  have hrev : log'.seen.reverse.Perm log.seen.reverse :=
    (List.reverse_perm _).trans (hseen.trans (List.reverse_perm _).symm)
  exact ⟨(hrev.filter _).map _, hseen.countP_eq _⟩

end Log.Kept

end PatternLint.Report

namespace PatternLint.Analysis

open Reader (Path)
open Report (Diagnostic Log hidden)

/-- What a report is about. -/
structure Call where
  message : String
  offset : Nat
  path : Path
  index : Option Int
  deriving Repr, DecidableEq

/-- The offset in the text that a report is about. -/
def Call.place (text : List Char) (call : Call) : Except Text.Numeral.Fault Nat := do
  let pos ← Reader.resolve text call.offset call.path
  match call.index with
  | some i => Reader.stringPosition text pos i
  | none => return pos

/-- The place and the message of a report, unless its place cannot be told. -/
def Call.key? (text : List Char) (call : Call) : Option (Nat × String) :=
  match call.place text with
  | .ok pos => some (pos, call.message)
  | .error _ => none

variable (doc : Document)

/-- The findings after reports, each of them made whatever became of those before. -/
def reported (f : Findings) (calls : List Call) : Findings :=
  calls.foldl (fun f call => (report doc call.message call.offset call.path call.index f).2) f

/-- The places and messages of reports, as far as they can be told. -/
def reportedKeys (calls : List Call) : List (Nat × String) :=
  calls.filterMap (Call.key? doc.text)

variable {doc} {f : Findings} {calls calls' : List Call}

theorem report_apply (message : String) (offset : Nat) (path : Path) (index : Option Int)
    (f : Findings) :
    report doc message offset path index f =
      match Call.place doc.text ⟨message, offset, path, index⟩ with
      | .ok pos => (.ok (), { f with log := f.log.add doc.file doc.text pos message })
      | .error e => (.error (.numeral e), f) := by
  have hplace : report doc message offset path index =
      match Call.place doc.text ⟨message, offset, path, index⟩ with
      | .ok pos => Analyze.change fun s => { s with log := s.log.add doc.file doc.text pos message }
      | .error e => throw (Fault.numeral e) := rfl
  rw [hplace]
  split <;> rfl

theorem report_log (call : Call) (f : Findings) :
    (report doc call.message call.offset call.path call.index f).2.log =
      match call.key? doc.text with
      | some key => f.log.add doc.file doc.text key.1 key.2
      | none => f.log := by
  rw [report_apply, Call.key?]
  rcases call.place doc.text with e | pos <;> rfl

theorem kept_reported (h : f.log.Kept doc.file doc.text) (calls : List Call) :
    (reported doc f calls).log.Kept doc.file doc.text := by
  induction calls generalizing f with
  | nil => exact h
  | cons call rest ih =>
    refine ih ?_
    rw [report_log]
    split
    · exact h.add _ _
    · exact h

theorem mem_seen_reported {key : Nat × String} :
    key ∈ (reported doc f calls).log.seen ↔
      key ∈ reportedKeys doc calls ∨ key ∈ f.log.seen := by
  induction calls generalizing f with
  | nil => simp [reported, reportedKeys]
  | cons call rest ih =>
    refine ih.trans ?_
    rw [report_log, reportedKeys, reportedKeys, List.filterMap_cons]
    cases call.key? doc.text with
    | none => rfl
    | some k =>
      rw [Log.mem_seen_add, List.mem_cons]
      tauto

/-- Reports made on fresh findings. The diagnostics are about different places or have different
messages, they and the suppressed reports together are as many as there are different places and
messages, a report shows unless it is suppressed at its line, and the order of the reports tells in
nothing but the order of the diagnostics. -/
theorem reports_accounted (doc : Document) (f : Findings) (calls : List Call) :
    let log := (reported doc { f with log := .empty } calls).log
    (log.diagnostics.map Diagnostic.key).Nodup ∧
    log.diagnostics.length + log.suppressed = (reportedKeys doc calls).toFinset.card ∧
    (∀ key, (∃ d ∈ log.diagnostics, d.key = key) ↔
      key ∈ reportedKeys doc calls ∧ hidden doc.text key = false) ∧
    (∀ d ∈ log.diagnostics, d = Report.diagnosticAt doc.file doc.text d.key) ∧
    ∀ calls', calls'.Perm calls →
      let log' := (reported doc { f with log := .empty } calls').log
      log'.diagnostics.Perm log.diagnostics ∧ log'.suppressed = log.suppressed := by
  intro log
  have hkept : ∀ calls, (reported doc { f with log := .empty } calls).log.Kept doc.file doc.text :=
    kept_reported Log.kept_empty
  have hseen : ∀ calls key, key ∈ (reported doc { f with log := .empty } calls).log.seen ↔
      key ∈ reportedKeys doc calls := fun calls key =>
    mem_seen_reported.trans (or_iff_left List.not_mem_nil)
  have h : log.Kept doc.file doc.text := hkept calls
  refine ⟨h.keys_nodup, ?_, fun key => ⟨?_, ?_⟩, fun d hd => (h.mem_diagnostics.mp hd).1, ?_⟩
  · rw [h.length_add_suppressed, ← List.toFinset_card_of_nodup h.seen]
    congr 1
    ext key
    simpa using hseen calls key
  · rintro ⟨d, hd, rfl⟩
    obtain ⟨-, hmem, hhidden⟩ := h.mem_diagnostics.mp hd
    exact ⟨(hseen calls _).mp hmem, hhidden⟩
  · rintro ⟨hmem, hhidden⟩
    exact ⟨Report.diagnosticAt doc.file doc.text key,
      h.mem_diagnostics.mpr ⟨rfl, (hseen calls _).mpr hmem, hhidden⟩, rfl⟩
  · intro calls' hperm
    refine h.perm (hkept calls') ?_
    refine (List.perm_ext_iff_of_nodup (hkept calls').seen h.seen).mpr fun key => ?_
    rw [hseen calls', hseen calls]
    exact (hperm.filterMap _).mem_iff

end PatternLint.Analysis
