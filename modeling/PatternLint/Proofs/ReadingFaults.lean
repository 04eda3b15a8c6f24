import PatternLint.Proofs.LexingFaults
import PatternLint.Proofs.Located
import PatternLint.Scan.Result

/-! How reading a text can end. Reading takes a token at each step, so that bounds that grow with
the text are never reached; what it cannot read it reports at a place of the text, unless the text
holds a numeral that is refused. -/

namespace PatternLint.Reader

/-- All large bounds give one ending. -/
def Settles {α ε : Type} (A : α → Prop) (F : ε → Prop) (need : Nat) (f : Nat → Except ε α) : Prop :=
  ∃ r, EndsIn A F r ∧ ∀ bound, need ≤ bound → f bound = r

namespace Settles

variable {α β ε : Type} {A A' : α → Prop} {B : β → Prop} {F : ε → Prop}
  {need need' : Nat}
  {f : Nat → Except ε α} {k : Nat → α → Except ε β} {r : Except ε α}

theorem const (h : EndsIn A F r) : Settles A F need fun _ => r :=
  ⟨r, h, fun _ _ => rfl⟩

theorem mono (h : Settles A F need f) (hn : need ≤ need')
    (hA : ∀ a, A a → A' a := by exact fun _ => id) : Settles A' F need' f := by
  obtain ⟨r, hr, hf⟩ := h
  exact ⟨r, hr.mono hA fun _ => id, fun bound hb => hf bound (Nat.le_trans hn hb)⟩

theorem succ (h : Settles A F need fun bound => f (bound + 1)) : Settles A F (need + 1) f := by
  obtain ⟨r, hr, hf⟩ := h
  refine ⟨r, hr, fun bound hb => ?_⟩
  obtain ⟨bound, rfl⟩ : ∃ b, bound = b + 1 := ⟨bound - 1, by omega⟩
  exact hf bound (by omega)

theorem bind (h : Settles A F need f) (hk : ∀ a, A a → Settles B F need fun bound => k bound a) :
    Settles B F need fun bound => f bound >>= k bound := by
  obtain ⟨r, hr, hf⟩ := h
  cases r with
  | error e => exact ⟨.error e, hr, fun bound hb => by simp only [hf bound hb]; rfl⟩
  | ok a =>
    obtain ⟨q, hq, hkq⟩ := hk a hr
    exact ⟨q, hq, fun bound hb => by simp only [hf bound hb]; exact hkq bound hb⟩

/-- First something that does not depend on the bound. -/
theorem after (h : EndsIn A F r) (hk : ∀ a, A a → Settles B F need fun bound => k bound a) :
    Settles B F need fun bound => r >>= k bound :=
  (const h).bind hk

end Settles

variable {text : List Char} {c next : Cursor} {tolerant : Bool}

/-- A place that reading has come to: one of the text, or behind all of it. -/
def Reached (text : List Char) (c : Cursor) : Prop :=
  On text c ∨ c.rest = []

/-- What reading at `c` leads to. -/
def Onward {α : Type} (text : List Char) (c : Cursor) (r : Reading α) : Prop :=
  Reached text r.next ∧ r.next.rest.length ≤ c.rest.length

theorem Reached.token?_ends (hc : Reached text c) :
    EndsIn (fun r => ∀ t, r = some t → Token.Of text t ∧ t.2.rest.length < c.rest.length)
      (Fault.Founded text tolerant) (token? tolerant c) := by
  rcases hc with hc | hc
  · have h : EndsIn _ (Fault.Founded text tolerant) _ := Reader.token?_ends hc
    cases htok : token? tolerant c with
    | error f => exact h.of_error htok
    | ok r =>
      rintro t rfl
      exact ⟨h.of_ok htok t rfl, token?_shorter htok⟩
  · have hnone : token? tolerant c = .ok none := by
      obtain ⟨pos, rest⟩ := c
      obtain rfl : rest = [] := hc
      rw [token?, skipBlanks]
    rw [hnone]
    rintro t ⟨⟩

theorem nextToken_ends (hc : On text c) :
    EndsIn (fun t => Token.Of text t ∧ t.2.rest.length < c.rest.length) (Fault.Founded text false)
      (nextToken c) := by
  have h : EndsIn _ (Fault.Founded text false) (token? false c) := Reached.token?_ends (.inl hc)
  unfold nextToken
  split
  · rename_i f hf
    exact h.of_error hf
  · exact hc.fail _
  · rename_i t ht
    exact h.of_ok ht t rfl

/-- Behind anything but a symbol there is a place of the text. -/
theorem Token.Of.on {tok : Token} (h : Token.Of text (tok, c)) (hl : tok.lexeme ≠ .atom "" true) :
    On text c :=
  h.2.2.resolve_right fun h => hl h.1

theorem Token.Of.reached {tok : Token} (h : Token.Of text (tok, c)) : Reached text c :=
  h.2.2.imp id And.right

theorem Onward.before {α : Type} {d : Cursor} {r : Reading α} (h : Onward text d r)
    (hd : d.rest.length ≤ c.rest.length) : Onward text c r :=
  ⟨h.1, Nat.le_trans h.2 hd⟩

theorem atomValue_ends {name : String} {escaped : Bool}
    (h : (Lexeme.atom name escaped).Occurs text) :
    EndsIn (fun _ => True) (Fault.Founded text tolerant) (atomValue name escaped) := by
  unfold atomValue
  split
  · trivial
  · rename_i hesc
    split
    · trivial
    split
    · rename_i hint
      rw [readNumeral]
      cases hread : Text.Numeral.read 10 (name.toList.filter (· != '.')) with
      | ok n => trivial
      | error f =>
        cases escaped with
        | true => exact (hesc rfl).elim
        | false =>
          obtain ⟨k, tail, hk⟩ := h
          exact ⟨10, _, .integer hk hint, hread⟩
    · split <;> trivial

section Structures

variable (text c)

def DatumSettles : Prop :=
  ∀ labels tok, Token.Of text (tok, c) → Settles (Onward text c) (Fault.Founded text false)
    (2 * c.rest.length + 2) fun bound => datumFrom bound labels tok c

def ListSettles : Prop :=
  ∀ origin items labels, origin ≤ text.length → Settles (Onward text c) (Fault.Founded text false)
    (2 * c.rest.length + 1) fun bound => listFrom bound origin items labels c

def ItemsSettle : Prop :=
  ∀ origin closer items labels, origin ≤ text.length →
    Settles (Onward text c) (Fault.Founded text false) (2 * c.rest.length + 1)
      fun bound => itemsFrom bound origin closer items labels c

variable {text c}

theorem malformed_ends {α : Type} {A : α → Prop} {pos : Nat} (h : pos ≤ text.length)
    (problem : Problem) :
    EndsIn A (Fault.Founded text tolerant) (malformed pos problem : Except Fault α) :=
  h

theorem list_settles (hc : Reached text c)
    (hd : ∀ d, d.rest.length < c.rest.length → DatumSettles text d)
    (hl : ∀ d, Reached text d → d.rest.length < c.rest.length → ListSettles text d) :
    ListSettles text c := by
  intro origin items labels horigin
  refine .succ ?_
  simp only [listFrom]
  refine .after (hc.token?_ends) fun r hr => ?_
  cases r with
  | none => exact .const (malformed_ends horigin _)
  | some t =>
    obtain ⟨tok, next⟩ := t
    obtain ⟨hof, hshort⟩ := hr _ rfl
    have hstart : tok.start ≤ text.length := hof.1
    have item : Settles (Onward text c) (Fault.Founded text false) (2 * c.rest.length) fun bound =>
        datumFrom bound labels tok next >>= fun r =>
          listFrom bound origin (r.value :: items) r.labels r.next := by
      refine ((hd next hshort labels tok hof).mono (by simp at hshort; omega)).bind fun r hr => ?_
      have hlen : r.next.rest.length < c.rest.length := Nat.lt_of_le_of_lt hr.2 hshort
      exact (hl r.next hr.1 hlen origin (r.value :: items) r.labels horigin).mono (by omega)
        fun _ h => h.before (Nat.le_of_lt hlen)
    dsimp only
    split
    · exact .const ⟨hof.reached, Nat.le_of_lt hshort⟩
    · exact .const (malformed_ends hstart _)
    · rename_i hdot
      split
      · exact .const (malformed_ends hstart _)
      · have hnext : On text next := hof.on (by rw [hdot]; exact nofun)
        refine .after (nextToken_ends hnext) fun t ht => ?_
        obtain ⟨hof, hshort'⟩ := ht
        have hlen : t.2.rest.length < c.rest.length := Nat.lt_trans hshort' hshort
        refine ((hd t.2 hlen labels t.1 hof).mono (by omega)).bind fun r hr => ?_
        refine .const ?_
        refine hr.1.token?_ends.bind fun close hclose => ?_
        split
        · obtain ⟨hof, hclosed⟩ := hclose _ rfl
          refine ⟨hof.reached, ?_⟩
          have := hr.2
          simp only at hclosed ⊢
          omega
        · exact malformed_ends hstart _
    · exact item

theorem items_settle (hc : Reached text c)
    (hd : ∀ d, d.rest.length < c.rest.length → DatumSettles text d)
    (hi : ∀ d, Reached text d → d.rest.length < c.rest.length → ItemsSettle text d) :
    ItemsSettle text c := by
  intro origin closer items labels horigin
  refine .succ ?_
  simp only [itemsFrom]
  refine .after hc.token?_ends fun r hr => ?_
  cases r with
  | none => exact .const (malformed_ends horigin _)
  | some t =>
    obtain ⟨tok, next⟩ := t
    obtain ⟨hof, hshort⟩ := hr _ rfl
    dsimp only
    split
    · split
      · exact .const ⟨hof.reached, Nat.le_of_lt hshort⟩
      · exact .const (malformed_ends hof.1 _)
    · refine ((hd next hshort labels tok hof).mono (by simp at hshort; omega)).bind fun r hr => ?_
      have hlen : r.next.rest.length < c.rest.length := Nat.lt_of_le_of_lt hr.2 hshort
      exact (hi r.next hr.1 hlen origin closer (r.value :: items) r.labels horigin).mono (by omega)
        fun _ h => h.before (Nat.le_of_lt hlen)

/-- One datum behind the place, and what is made of it. -/
theorem inner_settles {labels : Labels} {k : Reading Value → Except Fault (Reading Value)}
    (hc : On text c) (hd : ∀ d, d.rest.length < c.rest.length → DatumSettles text d)
    (hk : ∀ r, Onward text c r → EndsIn (Onward text c) (Fault.Founded text false) (k r)) :
    Settles (Onward text c) (Fault.Founded text false) (2 * c.rest.length + 1) fun bound =>
      nextToken c >>= fun (t, next) => datumFrom bound labels t next >>= k := by
  refine .after (nextToken_ends hc) fun t ht => ?_
  refine ((hd t.2 ht.2 labels t.1 ht.1).mono (by have := ht.2; omega)).bind fun r hr => ?_
  exact .const (hk r (hr.before (Nat.le_of_lt ht.2)))

theorem datum_settles (hd : ∀ d, d.rest.length < c.rest.length → DatumSettles text d)
    (hl : Reached text c → ListSettles text c) (hi : Reached text c → ItemsSettle text c) :
    DatumSettles text c := by
  intro labels tok hof
  have hstart : tok.start ≤ text.length := hof.1
  have here : ∀ {v : Value} {labels : Labels}, Onward text c ⟨v, labels, c⟩ :=
    ⟨hof.reached, Nat.le_refl _⟩
  refine .succ ?_
  simp only [datumFrom]
  obtain ⟨lex, start, past⟩ := tok
  cases lex with
  | atom name escaped =>
    refine .const ?_
    have hatom : EndsIn _ (Fault.Founded text false) (atomValue name escaped) :=
      atomValue_ends hof.2.1
    cases hv : atomValue name escaped with
    | ok v => exact here
    | error f => exact hatom.of_error hv
  | string text => exact .const here
  | char code => exact .const here
  | number n => exact .const here
  | sugar s => exact inner_settles (hof.on (by rintro ⟨⟩)) hd fun r hr => hr
  | opener o =>
    cases o with
    | list => exact hl hof.reached start [] labels hstart
    | properties =>
      refine (hi hof.reached start .paren [] labels hstart).bind fun r hr => .const ?_
      dsimp only
      split
      · exact hr
      · exact malformed_ends hstart _
    | _ => exact (hi hof.reached start _ [] labels hstart).bind fun r hr => .const hr
  | boolVector n =>
    refine inner_settles (hof.on (by rintro ⟨⟩)) hd fun r hr => ?_
    split
    · exact hr
    · exact malformed_ends hstart _
  | labelDef label => exact inner_settles (hof.on (by rintro ⟨⟩)) hd fun r hr => hr
  | labelRef label =>
    dsimp only
    split
    · exact .const here
    · exact .const (malformed_ends hstart _)
  | dot => exact .const (malformed_ends hstart _)
  | closer k => exact .const (malformed_ends hstart _)
  | extension => exact .const (malformed_ends hstart _)

/-- A step takes a token at least, so this is by induction on what is left of the text. -/
theorem structures_settle (text : List Char) (c : Cursor) :
    DatumSettles text c ∧ (Reached text c → ListSettles text c) ∧
      (Reached text c → ItemsSettle text c) := by
  have hd : ∀ d, d.rest.length < c.rest.length → DatumSettles text d :=
    fun d _ => (structures_settle text d).1
  have hl : Reached text c → ListSettles text c := fun hc =>
    list_settles hc hd fun d hd' _ => (structures_settle text d).2.1 hd'
  have hi : Reached text c → ItemsSettle text c := fun hc =>
    items_settle hc hd fun d hd' _ => (structures_settle text d).2.2 hd'
  exact ⟨datum_settles hd hl hi, hl, hi⟩
termination_by c.rest.length

theorem datum_settles_size (hc : On text c) :
    Settles (fun r => Reached text r.2 ∧ r.2.rest.length < c.rest.length)
      (Fault.Founded text false) c.rest.length fun size => datum size c := by
  refine .after (nextToken_ends hc) fun t ht => ?_
  obtain ⟨r, hr, hsize⟩ := (structures_settle text t.2).1 [] t.1 ht.1
  refine .bind ⟨r, hr, fun size hs => hsize _ (by have := ht.2; omega)⟩ fun r hr => .const ?_
  exact ⟨hr.1, Nat.lt_of_le_of_lt hr.2 ht.2⟩

end Structures

/-- What passing over something at `c` leads to. -/
def Passed (text : List Char) (c next : Cursor) : Prop :=
  Reached text next ∧ next.rest.length < c.rest.length

theorem Reached.token (hc : Reached text c) {tok : Token}
    (h : token? true c = .ok (some (tok, next))) :
    Token.Of text (tok, next) ∧ Passed text c next := by
  have htok : EndsIn _ (Fault.Founded text true) (token? true c) := hc.token?_ends
  have hof := htok.of_ok h _ rfl
  exact ⟨hof.1, hof.1.reached, hof.2⟩

theorem Passed.further {r : Except Fault Cursor} (h : Passed text c next)
    (hr : EndsIn (Passed text next) (Fault.Founded text true) r) :
    EndsIn (Passed text c) (Fault.Founded text true) r :=
  hr.mono (fun _ h' => ⟨h'.1, Nat.lt_trans h'.2 h.2⟩) fun _ => id

theorem skipFrom_ends {c : Cursor} {origin depth : Nat} (ho : origin ≤ text.length)
    (hc : Reached text c) :
    EndsIn (Passed text c) (Fault.Founded text true) (skipFrom origin depth c) := by
  cases h : token? true c with
  | error f =>
    rw [skipFrom_of_error h]
    exact hc.token?_ends.of_error h
  | ok r =>
    cases r with
    | none =>
      rw [skipFrom_of_none h]
      exact ho
    | some t =>
      obtain ⟨tok, next⟩ := t
      obtain ⟨hof, hpassed⟩ := hc.token h
      have hshort : next.rest.length < c.rest.length := hpassed.2
      have further : ∀ depth, EndsIn (Passed text c) (Fault.Founded text true)
          (skipFrom origin depth next) :=
        fun depth => hpassed.further (skipFrom_ends ho hpassed.1)
      rw [skipFrom_of_token h]
      split
      · exact further _
      · split
        · exact malformed_ends hof.1 _
        · exact hpassed
        · exact further _
      iterate 5 exact further _
      split
      · exact hpassed
      · exact further _
termination_by c.rest.length

theorem Reached.skipBlanks_ends (hc : Reached text c) :
    EndsIn (fun here => Reached text here ∧ here.rest.length ≤ c.rest.length) (Refuses text)
      (skipBlanks c) := by
  have hreached : EndsIn (Reached text) (Refuses text) (skipBlanks c) := by
    rcases hc with hc | hc
    · exact (Reader.skipBlanks_ends hc).mono (fun _ => .inl) fun _ => id
    · rw [skipBlanks]
      split
      · exact .inr hc
      all_goals simp_all
  cases hskip : skipBlanks c with
  | error f => exact hreached.of_error hskip
  | ok here => exact ⟨hreached.of_ok hskip, skipBlanks_shorter hskip⟩

/-- Reading on from `c` gives one result for all large bounds, and the fault of it is founded. -/
def Concludes (text : List Char) (forms : List (Value × Nat)) (c : Cursor) : Prop :=
  ∃ contents : Contents, (∀ f, contents.fault = some f → f.Founded text true) ∧
    ∀ size bound, text.length ≤ size → c.rest.length ≤ bound →
      readFrom size (bound + 1) forms c = contents

namespace Concludes

variable {forms forms' : List (Value × Nat)}

theorem complete (h : ∀ size bound, text.length ≤ size →
    readFrom size (bound + 1) forms c = ⟨forms.reverse, none⟩) : Concludes text forms c :=
  ⟨⟨forms.reverse, none⟩, nofun, fun size bound hs _ => h size bound hs⟩

theorem refused {f : Fault} (hf : f.Founded text true) (h : ∀ size bound, text.length ≤ size →
    readFrom size (bound + 1) forms c = ⟨forms.reverse, some f⟩) : Concludes text forms c :=
  ⟨⟨forms.reverse, some f⟩, fun _ h => Option.some.inj h ▸ hf,
    fun size bound hs _ => h size bound hs⟩

theorem step (hn : Concludes text forms' next) (hlen : next.rest.length < c.rest.length)
    (h : ∀ size bound, text.length ≤ size →
      readFrom size (bound + 1) forms c = readFrom size bound forms' next) :
    Concludes text forms c := by
  obtain ⟨contents, hf, hread⟩ := hn
  refine ⟨contents, hf, fun size bound hs hb => ?_⟩
  obtain ⟨bound, rfl⟩ : ∃ b, bound = b + 1 := ⟨bound - 1, by omega⟩
  exact (h size _ hs).trans (hread size bound hs (by omega))

end Concludes

/-- One round, by what the datum at the place is. -/
theorem readFrom_datum {here : Cursor} {size bound : Nat} {forms : List (Value × Nat)}
    (hskip : skipBlanks c = .ok here) (hempty : here.rest.isEmpty = false) :
    readFrom size (bound + 1) forms c = match datum size here with
      | .ok (v, next) => readFrom size bound ((v, here.pos) :: forms) next
      | .error (.unknownExtension _ _) =>
        match skipDatum here with
        | .ok next => readFrom size bound forms next
        | .error f => ⟨forms.reverse, some f⟩
      | .error f => ⟨forms.reverse, some f⟩ := by
  rewrite [readFrom, hskip]
  exact if_neg (by simp [hempty])

/-- Every round passes over something, so this is by induction on what is left of the text. -/
theorem Reached.concludes {c : Cursor} (hc : Reached text c) (forms : List (Value × Nat)) :
    Concludes text forms c := by
  have hblanks := hc.skipBlanks_ends
  cases hskip : skipBlanks c with
  | error f =>
    have hf : (Fault.numeral f).Founded text true := hblanks.of_error hskip
    exact .refused hf fun size bound _ => by rw [readFrom, hskip]
  | ok here =>
    obtain ⟨hhere, hlen⟩ := hblanks.of_ok hskip
    cases hempty : here.rest.isEmpty with
    | true =>
      exact .complete fun size bound _ => by simp only [readFrom, hskip, hempty, if_true]
    | false =>
      have hon : On text here := hhere.resolve_right fun h => by simp [h] at hempty
      obtain ⟨r, hr, hsize⟩ := datum_settles_size hon
      have hdatum : ∀ size, text.length ≤ size → datum size here = r := fun size hs =>
        hsize size (by have := hon.length_rest; omega)
      have hskips : EndsIn _ (Fault.Founded text true) (skipDatum here) :=
        skipFrom_ends hon.inside hhere
      cases r with
      | ok p =>
        have hshort : p.2.rest.length < c.rest.length := Nat.lt_of_lt_of_le hr.2 hlen
        refine (Reached.concludes hr.1 ((p.1, here.pos) :: forms)).step hshort
          fun size bound hs => ?_
        rw [readFrom_datum hskip hempty, hdatum size hs]
      | error f =>
        have stops : f.Founded text true → (∀ pos mark, f ≠ .unknownExtension pos mark) →
            Concludes text forms c := by
          intro hf hne
          refine .refused hf fun size bound hs => ?_
          rw [readFrom_datum hskip hempty, hdatum size hs]
          split <;> simp_all
        cases f with
        | unknownExtension pos mark =>
          cases hpast : skipDatum here with
          | ok next =>
            have hpassed := hskips.of_ok hpast
            have hshort : next.rest.length < c.rest.length := Nat.lt_of_lt_of_le hpassed.2 hlen
            refine (Reached.concludes hpassed.1 forms).step hshort fun size bound hs => ?_
            simp only [readFrom_datum hskip hempty, hdatum size hs, hpast]
          | error f =>
            refine .refused (hskips.of_error hpast) fun size bound hs => ?_
            simp only [readFrom_datum hskip hempty, hdatum size hs, hpast]
        | malformed pos problem => exact stops hr (by rintro _ _ ⟨⟩)
        | numeral f => exact stops hr (by rintro _ _ ⟨⟩)
termination_by c.rest.length

open Analysis (Document Findings)
open Scan (reportFault)

variable {doc : Document}

/-- One report about the text, logged or suppressed, and nothing else. -/
def ReportedOnce (doc : Document) (place : Nat) (message : String) (s : Findings) : Prop :=
  place ≤ doc.text.length ∧
    s = { Findings.empty with log := Report.Log.empty.add doc.file doc.text place message } ∧
    s.log.diagnostics.length + s.log.suppressed = 1

/-- What is malformed is reported behind the blanks that follow, which may
hold a refused skip mark. -/
theorem reportFault_malformed {pos : Nat} (hpos : pos ≤ doc.text.length) (problem : Problem) :
    (∃ f, Refuses doc.text f ∧
      (reportFault doc (some (.malformed pos problem)) Findings.empty).1 = .error (.numeral f)) ∨
    ∃ place s, reportFault doc (some (.malformed pos problem)) Findings.empty = (.ok (), s) ∧
      ReportedOnce doc place ("Read error: " ++ problem.message) s := by
  have hblanks := skipBlanks_ends (c := Cursor.of doc.text pos) (On.mk hpos rfl)
  cases hskip : skipBlanks (Cursor.of doc.text pos) with
  | error f =>
    refine .inl ⟨f, hblanks.of_error hskip, ?_⟩
    simp [reportFault, Analysis.report, resolve, hskip, bind, Except.bind]
    rfl
  | ok here =>
    refine .inr ⟨here.pos, _, ?_, (hblanks.of_ok hskip).inside, rfl, ?_⟩
    · simp [reportFault, Analysis.report, resolve, hskip, follow, bind, Except.bind,
        pure, Except.pure]
      rfl
    · exact Report.Log.length_add nofun

/-- Reading a text never comes to its bounds. It ends at a place of the text, where it reports what
is malformed once, or with a numeral of the text that is refused. -/
theorem read_ends (doc : Document) :
    (∀ size bound, doc.text.length ≤ size → doc.text.length < bound →
      readFrom size bound [] (Cursor.start doc.text) = read doc.text) ∧
    (∀ fault, (read doc.text).fault = some fault → fault.Founded doc.text true) ∧
    ((∃ f, Refuses doc.text f ∧
        (reportFault doc (read doc.text).fault Findings.empty).1 = .error (.numeral f)) ∨
      ((read doc.text).fault = none ∧
        reportFault doc (read doc.text).fault Findings.empty = (.ok (), Findings.empty)) ∨
      ∃ pos problem place s, (read doc.text).fault = some (.malformed pos problem) ∧
        reportFault doc (read doc.text).fault Findings.empty = (.ok (), s) ∧
        ReportedOnce doc place ("Read error: " ++ problem.message) s) := by
  have hstart : Reached doc.text (Cursor.start doc.text) := .inl (.start _)
  obtain ⟨contents, hfault, hread⟩ := hstart.concludes []
  have hcontents : read doc.text = contents := hread _ _ (Nat.le_refl _) (Nat.le_refl _)
  refine ⟨fun size bound hs hb => ?_, by rwa [hcontents], ?_⟩
  · obtain ⟨bound, rfl⟩ : ∃ b, bound = b + 1 := ⟨bound - 1, by omega⟩
    rw [hcontents, hread size bound hs (Nat.le_of_lt_succ hb)]
  · rw [hcontents]
    cases hf : contents.fault with
    | none => exact .inr (.inl ⟨rfl, rfl⟩)
    | some fault =>
      have hfounded := hfault fault hf
      cases fault with
      | malformed pos problem =>
        refine (reportFault_malformed hfounded problem).imp id fun ⟨place, s, hs⟩ => .inr ?_
        exact ⟨pos, problem, place, s, rfl, hs⟩
      | unknownExtension pos mark => cases hfounded.1
      | numeral f => exact .inl ⟨f, hfounded, rfl⟩

/-- A code in braces may be any text. -/
theorem bracedCode_refused :
    ¬ ∀ (text : List Char) (fault : Fault), (read text).fault = some fault →
      ∃ pos problem, fault = .malformed pos problem ∧ pos ≤ text.length := by
  intro h
  have hskip : skipBlanks ⟨0, ['?', '\\', 'x', '\x7b', 'z', 'z', '\x7d']⟩ = .ok _ :=
    skipBlanks_of_solid (by decide) (by decide) (by decide)
  have hchar : character false ⟨1, ['\\', 'x', '\x7b', 'z', 'z', '\x7d']⟩ =
      .error (.numeral (.malformed "zz" 16)) := by
    rw [character]
    rfl
  have htoken : token? false ⟨0, ['?', '\\', 'x', '\x7b', 'z', 'z', '\x7d']⟩ =
      .error (.numeral (.malformed "zz" 16)) := by
    have hsingle : singleLexeme? '?' = none := rfl
    rw [token?, hskip]
    simp [lexeme, hsingle, charLexeme, Cursor.drop, hchar]
  have hread : (read ['?', '\\', 'x', '\x7b', 'z', 'z', '\x7d']).fault =
      some (.numeral (.malformed "zz" 16)) := by
    simp [read, readFrom, Cursor.start, hskip, datum, nextToken, htoken, bind, Except.bind]
  obtain ⟨pos, problem, heq, -⟩ := h _ _ hread
  cases heq

end PatternLint.Reader
