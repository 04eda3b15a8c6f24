import PatternLint.Analysis.Analyzer
import PatternLint.Proofs.PositionRecovery

/-! A conduct that refuses misplaced sites and reports. Where the path of a site leads to its
expression, all checks of the strings found there do the same under it. -/

namespace PatternLint.Analysis

open Reader (Path)

/-- An offset and a path, the innermost step first, lead to a part of the form at `start`. -/
structure Leads (form : Value) (start offset : Nat) (path : Path) (part : Value) : Prop where
  offset : offset = start
  path : form.part? path.reverse = some part

/-- Values that stand in a form one by one, the first of them with an index. -/
def LeadsFrom (form : Value) (start offset : Nat) (path : Path) (index : Nat) (items : List Value) :
    Prop :=
  ∀ k item, items[k]? = some item → Leads form start offset ((index + k) :: path) item

open Classical in
/-- Gives up at a site that does not lead to its expression, and at a report that does not lead to a
part of the form or is about a character, but not of the string that stands there. -/
noncomputable abbrev Conduct.strict (form : Value) (start : Nat) (refusal : Fault) : Conduct where
  site site := if Leads form start site.offset site.path site.expr then return else throw refusal
  report doc message text offset path index :=
    if ∃ part, Leads form start offset path part ∧ (index.isSome → ∃ s ∈ text, part = .str s) then
      Analysis.report doc message offset path index
    else throw refusal

variable {doc : Document} {form part : Value} {start offset index : Nat} {path : Path}
  {refusal : Fault} {site : Site} {items : List Value}

/-- A path grows by the index of a child. -/
theorem Leads.child {v : Value} {i : Nat} (h : Leads form start offset path part)
    (hi : part.child? i = some v) : Leads form start offset (i :: path) v where
  offset := h.offset
  path := by
    rw [List.reverse_cons, Value.part?, List.foldlM_append, ← Value.part?, h.path]
    simp [hi]

namespace LeadsFrom

/-- Items of a list from some index on, and the first of them. -/
theorem cons {v : Value} (h : LeadsFrom form start offset path index (v :: items)) :
    Leads form start offset (index :: path) v ∧
      LeadsFrom form start offset path (index + 1) items :=
  ⟨h 0 v rfl, fun k item hk => by
    rw [Nat.add_assoc, Nat.add_comm 1]
    exact h (k + 1) item hk⟩

theorem tail {v : Value} (h : LeadsFrom form start offset path index (v :: items)) :
    LeadsFrom form start offset path (index + 1) items :=
  h.cons.2

end LeadsFrom

theorem Leads.children (h : Leads form start offset path part)
    (hpart : ∀ i : Nat, part.child? i = items[i]?) : LeadsFrom form start offset path 0 items := by
  intro k item hk
  rw [Nat.zero_add]
  exact h.child ((hpart k).trans hk)

theorem Leads.members (h : Leads form start offset path (.list items)) :
    LeadsFrom form start offset path 0 items :=
  h.children fun _ => rfl

/-- Arguments are the parts of a call behind its head. -/
theorem Leads.args {head : Value} (h : Leads form start offset path (.list (head :: items))) :
    LeadsFrom form start offset path 1 items :=
  h.members.tail

/-! The path to a literal -/

mutual

/-- Further on, to where a literal stands inside of a quoted list. -/
theorem Leads.literal {text : String} {inner path : Path} {v : Value}
    (h : Leads form start offset path v) (hl : literalPath? text v = some inner) :
    Leads form start offset (inner ++ path) (.str text) := by
  match v with
  | .str s =>
    rw [literalPath?] at hl
    split at hl
    · cases hl
      subst text
      exact h
    · cases hl
  | .list items =>
    rw [literalPath?] at hl
    exact h.members.literal hl
  | .vec items =>
    rw [literalPath?] at hl
    exact (h.children fun _ => rfl).literal hl
  | .dotted items tail =>
    rw [literalPath?] at hl
    have hall : LeadsFrom form start offset path 0 (items ++ [tail]) := h.children fun _ => rfl
    rcases Option.or_eq_some_iff.1 hl with hl | ⟨-, hl⟩
    · refine LeadsFrom.literal (fun k item hk => hall k item ?_) hl
      rw [List.getElem?_append_left (List.getElem?_eq_some_iff.1 hk).1]
      exact hk
    · obtain ⟨deeper, hd, rfl⟩ := Option.map_eq_some_iff.1 hl
      rw [List.append_assoc]
      have htail := hall items.length tail (by simp)
      rw [Nat.zero_add] at htail
      exact htail.literal hd
  | .sym _ | .int _ | .float _ | .closure .. | .unknown => simp [literalPath?] at hl

theorem LeadsFrom.literal {text : String} {inner path : Path} {index : Nat} {items : List Value}
    (h : LeadsFrom form start offset path index items)
    (hl : literalPathFrom text index items = some inner) :
    Leads form start offset (inner ++ path) (.str text) := by
  match items with
  | [] => simp [literalPathFrom] at hl
  | item :: rest =>
    rw [literalPathFrom] at hl
    rcases Option.or_eq_some_iff.1 hl with hl | ⟨-, hl⟩
    · obtain ⟨deeper, hd, rfl⟩ := Option.map_eq_some_iff.1 hl
      rw [List.append_assoc]
      exact h.cons.1.literal hd
    · exact h.tail.literal hl

end

/-! Sites that lead to their expressions -/

/-- The path of a site leads to its expression. -/
abbrev Site.InPlace (site : Site) (form : Value) (start : Nat) : Prop :=
  Leads form start site.offset site.path site.expr

theorem Site.InPlace.child {v : Value} (h : site.InPlace form start)
    (hexpr : site.expr = .list items) (hi : items[index]? = some v) :
    (site.child index).InPlace form start := by
  have hv : (site.child index).expr = v := by
    rw [Site.child, hexpr]
    simp [hi]
  rw [Site.InPlace, hv]
  exact Leads.child h (by rw [hexpr]; exact hi)

/-- A report is not refused where its path leads, and only literals have an index. -/
theorem strict_report {message : String} {text : Option String} {i : Option Int}
    (h : Leads form start offset path part) (hi : i.isSome → ∃ s ∈ text, part = .str s) :
    (Conduct.strict form start refusal).report doc message text offset path i =
      Conduct.report doc message text offset path i :=
  if_pos ⟨part, h, hi⟩

/-- A site in place is taken as it is. -/
theorem take_strict (h : site.InPlace form start) :
    @Site.take (.strict form start refusal) site = pure site := by
  have hsite : (Conduct.strict form start refusal).site site = pure () := if_pos h
  simp only [Site.take, hsite, pure_bind]

theorem take_plain (site : Site) : site.take = pure site :=
  rfl

theorem Site.report_strict {text message : String} {i : Option Int} (h : site.InPlace form start) :
    @Site.report (.strict form start refusal) doc site text message i =
      site.report doc text message i := by
  unfold Site.report
  cases hl : literalPath? text site.expr with
  | none => exact strict_report h nofun
  | some inner => exact strict_report (h.literal hl) fun _ => ⟨text, rfl, rfl⟩

/-- All complaints about a literal are reported at its site. -/
theorem reportComplaints_strict {text name : String} (h : site.InPlace form start)
    (complaints : List Pattern.Complaint) :
    @reportComplaints (.strict form start refusal) doc site text name complaints =
      reportComplaints doc site text name complaints := by
  induction complaints with
  | nil => rfl
  | cons complaint rest ih => simp only [reportComplaints, Site.report_strict h, ih]

theorem Site.check_strict {checker : Pattern.Checker} {name text : String}
    (h : site.InPlace form start) :
    @Site.check (.strict form start refusal) doc site checker name text =
      site.check doc checker name text := by
  unfold Site.check
  cases checker text with
  | ok complaints => exact reportComplaints_strict h complaints
  | error f => exact Site.report_strict h

theorem Site.checkRegexps_strict {name : String} (h : site.InPlace form start)
    (texts : List String) :
    @Site.checkRegexps (.strict form start refusal) doc site name texts =
      site.checkRegexps doc name texts := by
  induction texts with
  | nil => rfl
  | cons text rest ih => simp only [Site.checkRegexps, Site.check_strict h, ih]

theorem Site.checkSyntax_strict {name text : String} (h : site.InPlace form start) :
    @Site.checkSyntax (.strict form start refusal) doc site name text =
      site.checkSyntax doc name text :=
  reportComplaints_strict h _

/-! Reports about parts of a form -/

theorem reportAll_strict (h : Leads form start offset path part) (messages : List String) :
    @reportAll (.strict form start refusal) doc offset path messages =
      reportAll doc offset path messages := by
  induction messages with
  | nil => rfl
  | cons message rest ih => simp only [reportAll, strict_report (i := none) h nofun, ih]

theorem reportSplices_strict {arg : Value} (h : site.InPlace form start) :
    @reportSplices (.strict form start refusal) doc arg site = reportSplices doc arg site := by
  simp only [reportSplices, reportAll_strict h]

/-- Pieces of a joined text are children of its site. -/
theorem checkPieces_strict {pieces : List Value} (h : site.InPlace form start)
    (hexpr : site.expr = .list items) (hp : pieces = items.drop index) :
    @checkPieces (.strict form start refusal) doc site index pieces =
      checkPieces doc site index pieces := by
  induction pieces generalizing index with
  | nil => rfl
  | cons piece pieces ih =>
    have hrest : pieces = items.drop (index + 1) := by
      rw [← List.tail_drop, ← hp, List.tail_cons]
    cases pieces with
    | nil => rfl
    | cons next rest =>
      have hnext : items[index + 1]? = some next := by
        rw [← List.head?_drop, ← hrest, List.head?_cons]
      have hchild := h.child hexpr hnext
      simp only [checkPieces, take_strict hchild, take_plain, pure_bind,
        reportSplices_strict hchild, ih hrest]

/-- Arguments of a format are children of its site. -/
theorem checkConversions_strict {fmt : List Char} (h : site.InPlace form start)
    (hexpr : site.expr = .list items) (found : List Primitive.Conversion) :
    @checkConversions (.strict form start refusal) doc fmt items site found =
      checkConversions doc fmt items site found := by
  induction found with
  | nil => rfl
  | cons c rest ih =>
    simp only [checkConversions, ih]
    cases c.directive with
    | percent => rfl
    | argument i spec =>
      cases hi : items[(i + 2).toNat]? with
      | none => simp only [hi]
      | some arg =>
        have hchild := h.child hexpr hi
        simp only [hi, take_strict hchild, take_plain, pure_bind, reportSplices_strict hchild]

theorem checkFormat_strict (h : site.InPlace form start) (hexpr : site.expr = .list items) :
    @checkFormat (.strict form start refusal) doc items site = checkFormat doc items site := by
  unfold checkFormat
  split
  · split
    · exact checkConversions_strict h hexpr _
    · rfl
    · rfl
  · rfl

end PatternLint.Analysis
