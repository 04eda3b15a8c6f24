import PatternLint.Proofs.JoinedReading
import PatternLint.Proofs.Skipping
import PatternLint.Proofs.TokenPlaces

/-! Reading a text goes forward. It is done in rounds, each of which takes a datum or steps
over one with an unknown extension of the syntax; every round ends behind its start and
before the next one begins. -/

namespace PatternLint.Reader

variable {text : List Char} {c here last next : Cursor} {size bound origin depth : Nat} {v : Value}

/-- The part of the text that a round passes, and the datum that it takes, if any. -/
structure Round where
  start : Nat
  value? : Option Value
  stop : Nat

def Round.form? (round : Round) : Option (Value × Nat) :=
  round.value?.map (·, round.start)

/-- A round that begins behind the blanks at one place and ends at the other. -/
inductive Advances (text : List Char) : Cursor → Round → Cursor → Prop
  | takes {c here next : Cursor} {v : Value} (hs : skipBlanks c = .ok here) (hne : here.rest ≠ [])
    (hd : datum text.length here = .ok (v, next)) :
    Advances text c ⟨here.pos, some v, next.pos⟩ next
  | passes {c here next : Cursor} {pos : Nat} {mark : String} (hs : skipBlanks c = .ok here)
    (hne : here.rest ≠ []) (hd : datum text.length here = .error (.unknownExtension pos mark))
    (hskip : skipDatum here = .ok next) : Advances text c ⟨here.pos, none, next.pos⟩ next

/-- Rounds one after the other. -/
inductive Rounds (text : List Char) : Cursor → List Round → Cursor → Prop
  | nil {c : Cursor} : Rounds text c [] c
  | cons {c mid last : Cursor} {round : Round} {rounds : List Round} (h : Advances text c round mid)
    (hs : Rounds text mid rounds last) : Rounds text c (round :: rounds) last

/-- There is no further round: the text is at its end, or what comes next
cannot be read or passed. -/
inductive Stops (text : List Char) : Cursor → Option Fault → Prop
  | finished {c here : Cursor} (hs : skipBlanks c = .ok here) (hr : here.rest = []) :
      Stops text c none
  | refused {c : Cursor} {f : Text.Numeral.Fault} (hs : skipBlanks c = .error f) :
    Stops text c (some (.numeral f))
  | unread {c here : Cursor} {f : Fault} (hs : skipBlanks c = .ok here) (hne : here.rest ≠ [])
    (hd : datum text.length here = .error f) (hf : f.isExtension = false) : Stops text c (some f)
  | unpassed {c here : Cursor} {pos : Nat} {mark : String} {f : Fault}
    (hs : skipBlanks c = .ok here) (hne : here.rest ≠ [])
    (hd : datum text.length here = .error (.unknownExtension pos mark))
    (hskip : skipDatum here = .error f) : Stops text c (some f)

/-! One round -/

/-- Stepping over a datum goes on from its first token. -/
theorem skipFrom_leads {c mid : Cursor} {tok : Token} {depth : Nat}
    (htok : token? true c = .ok (some (tok, mid))) (h : skipFrom origin depth c = .ok next) :
    mid.Leads next := by
  have further : ∀ {depth}, skipFrom origin depth mid = .ok next → mid.Leads next := by
    intro depth h
    have hshort : mid.rest.length < c.rest.length := token?_shorter htok
    obtain ⟨tok', mid', htok'⟩ := token?_of_skipFrom h
    exact (token?_leads htok').trans (skipFrom_leads htok' h)
  rw [skipFrom_of_token htok] at h
  split at h
  · exact further h
  · split at h
    · cases h
    · cases h
      exact .refl _
    · exact further h
  iterate 5 exact further h
  split at h
  · cases h
    exact .refl _
  · exact further h
termination_by c.rest.length

theorem Cursor.Leads.pos_le (h : c.Leads next) : c.pos ≤ next.pos := by
  obtain ⟨n, rfl⟩ := h
  exact Nat.le_add_right _ _

theorem skipDatum_ahead (h : skipDatum c = .ok next) : c.pos < next.pos := by
  rw [skipDatum] at h
  obtain ⟨tok, mid, htok⟩ := token?_of_skipFrom h
  obtain ⟨hafter, hnonempty, hstop⟩ := token?_extent htok
  have hpassed : mid.pos ≤ next.pos := (skipFrom_leads htok h).pos_le
  omega

theorem Reached.on (hc : Reached text c) (hne : c.rest ≠ []) : On text c :=
  hc.resolve_right hne

/-- What a round passes is what stepping over a datum passes. -/
theorem Advances.skips {round : Round} (hc : Reached text c) (h : Advances text c round next) :
    ∃ here, skipBlanks c = .ok here ∧ On text here ∧ skipDatum here = .ok next ∧
      round.start = here.pos ∧ round.stop = next.pos := by
  cases h with
  | @takes here next v hs hne hd =>
    have hon : On text here := (hc.skipBlanks_ends.of_ok hs).1.on hne
    refine ⟨here, hs, hon, ?_, rfl, rfl⟩
    rw [← hon.eq_of] at hd ⊢
    exact skipDatum_of_datum hd
  | @passes here next pos mark hs hne hd hskip =>
    exact ⟨here, hs, (hc.skipBlanks_ends.of_ok hs).1.on hne, hskip, rfl, rfl⟩

/-- A round goes forward. -/
theorem Advances.forward {round : Round} (hc : Reached text c) (h : Advances text c round next) :
    c.pos ≤ round.start ∧ round.start < round.stop ∧ round.stop = next.pos ∧ Reached text next ∧
      next.rest.length < c.rest.length := by
  obtain ⟨here, hs, hon, hskip, hstart, hstop⟩ := h.skips hc
  have hpassed : EndsIn (Passed text here) (Fault.Founded text true) (skipFrom here.pos 0 here) :=
    skipFrom_ends hon.inside (.inl hon)
  obtain ⟨hreached, hshort⟩ := hpassed.of_ok hskip
  refine ⟨?_, ?_, hstop, hreached, Nat.lt_of_lt_of_le hshort (skipBlanks_shorter hs)⟩
  · rw [hstart]
    exact (skipBlanks_leads hs).pos_le
  · rw [hstart, hstop]
    exact skipDatum_ahead hskip

/-! All rounds -/

namespace Rounds

variable {rounds : List Round}

theorem length_le (hc : Reached text c) (h : Rounds text c rounds last) :
    rounds.length + last.rest.length ≤ c.rest.length := by
  induction h with
  | nil => simp
  | cons h _ ih =>
    obtain ⟨-, -, -, hreached, hshort⟩ := h.forward hc
    have := ih hreached
    rw [List.length_cons]
    omega

theorem forward (hc : Reached text c) (h : Rounds text c rounds last) :
    ∀ round ∈ rounds, c.pos ≤ round.start ∧ round.start < round.stop := by
  induction h with
  | nil => exact List.forall_mem_nil _
  | cons h _ ih =>
    obtain ⟨hafter, hnonempty, hstop, hreached, -⟩ := h.forward hc
    intro round hround
    rcases List.mem_cons.mp hround with rfl | hround
    · exact ⟨hafter, hnonempty⟩
    · obtain ⟨hlater, hround⟩ := ih hreached round hround
      exact ⟨by omega, hround⟩

theorem apart (hc : Reached text c) (h : Rounds text c rounds last) :
    rounds.Pairwise fun a b => a.stop ≤ b.start := by
  induction h with
  | nil => exact .nil
  | cons h hs ih =>
    obtain ⟨-, -, hstop, hreached, -⟩ := h.forward hc
    refine .cons (fun b hb => ?_) (ih hreached)
    rw [hstop]
    exact (hs.forward hreached b hb).1

end Rounds

/-- Reading runs through rounds until there is none. -/
theorem readFrom_rounds (hc : Reached text c) (hb : c.rest.length < bound) :
    ∃ rounds last, Rounds text c rounds last ∧
      Stops text last (readFrom text.length bound [] c).fault ∧
      (readFrom text.length bound [] c).forms = rounds.filterMap Round.form? := by
  induction bound generalizing c with
  | zero => exact (Nat.not_lt_zero _ hb).elim
  | succ bound ih =>
    cases hs : skipBlanks c with
    | error f =>
      rw [readFrom_refused hs]
      exact ⟨[], c, .nil, .refused hs, rfl⟩
    | ok here =>
      by_cases hne : here.rest = []
      · rw [readFrom_blank hs hne]
        exact ⟨[], c, .nil, .finished hs hne, rfl⟩
      rw [readFrom_datum hs (by simpa using hne)]
      -- After a round, what is read on is read in further rounds.
      have further : ∀ {round : Round} {next}, Advances text c round next →
          ∃ rounds last, Rounds text c (round :: rounds) last ∧
            Stops text last (readFrom text.length bound [] next).fault ∧
            (readFrom text.length bound [] next).forms = rounds.filterMap Round.form? := by
        intro round next hround
        obtain ⟨-, -, -, hreached, hshort⟩ := hround.forward hc
        obtain ⟨rounds, last, hrounds, hstops, hforms⟩ := ih hreached (by omega)
        exact ⟨rounds, last, .cons hround hrounds, hstops, hforms⟩
      cases hd : datum text.length here with
      | ok r =>
        obtain ⟨v, next⟩ := r
        obtain ⟨rounds, last, hrounds, hstops, hforms⟩ := further (.takes hs hne hd)
        dsimp only
        rw [readFrom_forms]
        exact ⟨_, last, hrounds, hstops, by rw [hforms]; rfl⟩
      | error f =>
        cases f with
        | unknownExtension pos mark =>
          dsimp only
          cases hskip : skipDatum here with
          | ok next =>
            obtain ⟨rounds, last, hrounds, hstops, hforms⟩ := further (.passes hs hne hd hskip)
            exact ⟨_, last, hrounds, hstops, hforms⟩
          | error f => exact ⟨[], c, .nil, .unpassed hs hne hd hskip, rfl⟩
        | malformed pos problem => exact ⟨[], c, .nil, .unread hs hne hd rfl, rfl⟩
        | numeral f => exact ⟨[], c, .nil, .unread hs hne hd rfl, rfl⟩

/-! What each round takes -/

theorem readOne_of_head {offset : Nat} (h : (read text).forms.head? = some (v, offset)) :
    readOne text = .ok v := by
  obtain ⟨forms, hforms⟩ := List.head?_eq_some_iff.1 h
  rw [readOne]
  rcases hread : read text with ⟨forms', fault⟩
  rw [hread] at hforms
  obtain rfl : forms' = (v, offset) :: forms := hforms
  rfl

/-- A datum that is taken from a text is the first one of what is left of the text there. -/
theorem On.readOne_drop (hc : On text c) (hs : skipBlanks c = .ok c) (hne : c.rest ≠ [])
    (hd : datum text.length c = .ok (v, next)) : readOne (text.drop c.pos) = .ok v := by
  let j : Joint := ⟨text.drop c.pos, c.pos, [], .inl rfl⟩
  have hat : j.At (Cursor.start (text.drop c.pos)) c := by
    refine ⟨?_, .inl rfl⟩
    simp only [Joint.place, Cursor.start, j, List.append_nil, Nat.add_zero, ← hc.rest]
  have hshifted : (readFrom text.length (text.length + 1) [] (Cursor.start (text.drop c.pos))).shift
      c.pos = readFrom text.length (text.length + 1) [] c :=
    (Joint.readFrom_shifted rfl hat).symm
  have hlength : (text.drop c.pos).length ≤ text.length := by simp
  rw [read_bounds hlength (Nat.lt_succ_of_le hlength),
    readFrom_datum hs (by simpa using hne), hd] at hshifted
  dsimp only at hshifted
  rw [readFrom_forms] at hshifted
  have hforms := congrArg (fun contents => contents.forms.head?) hshifted
  rw [Contents.shift, List.head?_map] at hforms
  obtain ⟨⟨v', offset⟩, hhead, heq⟩ := Option.map_eq_some_iff.1 hforms
  obtain ⟨rfl, -⟩ := Prod.mk.inj heq
  exact readOne_of_head hhead

theorem Advances.readOne {round : Round} {form : Value × Nat} (hc : Reached text c)
    (h : Advances text c round next) (hform : round.form? = some form) :
    Reader.readOne (text.drop form.2) = .ok form.1 := by
  cases h with
  | takes hs hne hd =>
    cases hform
    exact ((hc.skipBlanks_ends.of_ok hs).1.on hne).readOne_drop (skipBlanks_idem hs) hne hd
  | passes => cases hform

theorem Rounds.readOne {rounds : List Round} {round : Round} {form : Value × Nat}
    (hc : Reached text c) (h : Rounds text c rounds last) (hround : round ∈ rounds)
    (hform : round.form? = some form) : Reader.readOne (text.drop form.2) = .ok form.1 := by
  induction h with
  | nil => cases hround
  | cons h _ ih =>
    rcases List.mem_cons.mp hround with rfl | hround
    · exact h.readOne hc hform
    · obtain ⟨-, -, -, hreached, -⟩ := h.forward hc
      exact ih hreached hround

/-- Reading a text makes progress. It comes to an end of its own, which no bound decides, after
finitely many rounds. Each round, also one that steps over an unknown extension of the syntax, ends
behind its start, and none begins before the end of another. The offsets of the data go up, and each
datum is what is read first where the text begins at its offset. -/
theorem read_progresses (text : List Char) :
    (∀ size bound, text.length ≤ size → text.length < bound →
      readFrom size bound [] (Cursor.start text) = read text) ∧
    ∃ rounds last, Rounds text (Cursor.start text) rounds last ∧ Stops text last (read text).fault ∧
      (read text).forms = rounds.filterMap Round.form? ∧ rounds.length ≤ text.length ∧
      (∀ round ∈ rounds, round.start < round.stop) ∧
      (rounds.Pairwise fun a b => a.stop ≤ b.start) ∧
      ((read text).forms.Pairwise fun a b => a.2 < b.2) ∧
      ∀ form ∈ (read text).forms, readOne (text.drop form.2) = .ok form.1 := by
  have hstart : Reached text (Cursor.start text) := .inl (.start text)
  obtain ⟨rounds, last, hrounds, hstops, hforms⟩ := readFrom_rounds hstart (Nat.lt_succ_self _)
  have hlength := hrounds.length_le hstart
  have hforward := hrounds.forward hstart
  have hapart := hrounds.apart hstart
  refine ⟨fun size bound hs hb => read_bounds hs hb, rounds, last, hrounds, hstops, hforms,
    Nat.le_of_add_right_le hlength, fun round hround => (hforward round hround).2, hapart, ?_, ?_⟩
  · have hordered : (rounds.filterMap Round.form?).Pairwise fun a b => a.2 < b.2 := by
      refine List.pairwise_filterMap.mpr (hapart.imp_of_mem fun ha _ hab a' ha' b' hb' => ?_)
      obtain ⟨v, -, rfl⟩ := Option.map_eq_some_iff.1 ha'
      obtain ⟨w, -, rfl⟩ := Option.map_eq_some_iff.1 hb'
      exact Nat.lt_of_lt_of_le (hforward _ ha).2 hab
    exact hforms ▸ hordered
  · intro form hform
    have hform : form ∈ rounds.filterMap Round.form? := hforms ▸ hform
    obtain ⟨round, hround, hsome⟩ := List.mem_filterMap.mp hform
    exact hrounds.readOne hstart hround hsome

end PatternLint.Reader
