import PatternLint.Proofs.PlainText

/-! Stepping over tokens and reading end at the same place. What stands there may carry labels or be
a table of characters; only that it can be read is asked. -/

namespace PatternLint.Reader

/-- Stepping over tokens passes from one place to the other with all structures that it opened
closed again, and ends there if none was open before. -/
def Passes (c next : Cursor) : Prop :=
  ∀ origin depth, skipFrom origin depth c =
    if depth = 0 then .ok next else skipFrom origin depth next

/-- Stepping over tokens closes one open structure on the way from one place to the other. -/
def Closes (c next : Cursor) : Prop :=
  ∀ origin depth, skipFrom origin (depth + 1) c =
    if depth = 0 then .ok next else skipFrom origin depth next

variable {bound : Nat} {c mid next inside : Cursor} {lex : Lexeme} {start : Nat}

theorem Passes.closes (h : Passes c mid) (hc : Closes mid next) : Closes c next :=
  fun origin depth => (h origin (depth + 1)).trans (hc origin depth)

theorem Takes.passes (h : Takes c lex start next) {v : Value} (hv : lex.datum? = some v) :
    Passes c next := by
  intro origin depth
  rw [h.skips]
  cases lex <;> first | rfl | cases hv

theorem Takes.passes_ref {label : Nat} (h : Takes c (.labelRef label) start next) :
    Passes c next :=
  fun origin depth => h.skips origin depth

/-- Tokens that belong to the datum behind them. -/
def Lexeme.isMark : Lexeme → Bool
  | .sugar _ | .labelDef _ | .boolVector _ => true
  | _ => false

theorem Takes.passes_mark (h : Takes c lex start inside) (hlex : lex.isMark)
    (hi : Passes inside next) : Passes c next := by
  intro origin depth
  rw [h.skips]
  cases lex <;> first | exact hi origin depth | cases hlex

theorem Takes.passes_opener {o : Opener} (h : Takes c (.opener o) start inside)
    (hi : Closes inside next) : Passes c next := by
  intro origin depth
  rw [h.skips]
  exact hi origin depth

theorem Takes.closes_closer {k : Closer} (h : Takes c (.closer k) start next) : Closes c next :=
  h.skips_closer

theorem Takes.closes_dot (h : Takes c .dot start inside) (hi : Closes inside next) :
    Closes c next := by
  intro origin depth
  rw [h.skips]
  exact hi origin depth

/-- What the reader makes of a token with this bound ends where stepping over it ends. -/
def DatumPasses (bound : Nat) : Prop :=
  ∀ ⦃c tok inside labels r⦄, token? false c = .ok (some (tok, inside)) →
    datumFrom bound labels tok inside = .ok r → Passes c r.next

def ListCloses (bound : Nat) : Prop :=
  ∀ ⦃c origin items labels r⦄, listFrom bound origin items labels c = .ok r → Closes c r.next

def ItemsClose (bound : Nat) : Prop :=
  ∀ ⦃c origin closer items labels r⦄,
    itemsFrom bound origin closer items labels c = .ok r → Closes c r.next

theorem itemsClose_succ (hd : DatumPasses bound) (hi : ItemsClose bound) :
    ItemsClose (bound + 1) := by
  intro c origin closer items labels r hrun
  rw [itemsFrom] at hrun
  obtain ⟨found, htok, h⟩ := bind_ok hrun
  clear hrun
  cases found with
  | none => cases h
  | some found =>
    obtain ⟨⟨lex, start, stop⟩, next⟩ := found
    cases lex with
    | closer k =>
      simp only at h
      split at h
      · cases h
        exact Takes.closes_closer ⟨stop, htok⟩
      · cases h
    | _ =>
      obtain ⟨v, hv, h⟩ := bind_ok h
      exact (hd htok hv).closes (hi h)

theorem listCloses_succ (hd : DatumPasses bound) (hl : ListCloses bound) :
    ListCloses (bound + 1) := by
  intro c origin items labels r hrun
  rw [listFrom] at hrun
  obtain ⟨found, htok, h⟩ := bind_ok hrun
  clear hrun
  cases found with
  | none => cases h
  | some found =>
    obtain ⟨⟨lex, start, stop⟩, next⟩ := found
    cases lex with
    | closer k =>
      cases k with
      | paren =>
        cases h
        exact Takes.closes_closer ⟨stop, htok⟩
      | bracket => cases h
    | dot =>
      simp only at h
      split at h
      · cases h
      obtain ⟨⟨tok, afterTail⟩, htail, h⟩ := bind_ok h
      obtain ⟨v, hv, h⟩ := bind_ok h
      obtain ⟨found, hclose, h⟩ := bind_ok h
      have hpass : Passes next v.next := hd (nextToken_eq_ok htail) hv
      split at h
      · cases h
        exact Takes.closes_dot ⟨stop, htok⟩ (hpass.closes (Takes.closes_closer ⟨_, hclose⟩))
      · cases h
    | _ =>
      obtain ⟨v, hv, h⟩ := bind_ok h
      exact (hd htok hv).closes (hl h)

/-- The datum behind a mark decides where the whole ends. -/
theorem passes_inner (hd : DatumPasses bound) {labels : Labels} {r : Reading Value}
    {k : Reading Value → Except Fault (Reading Value)} (hk : ∀ v, k v = .ok r → r.next = v.next)
    (h : (do
      let p ← nextToken inside
      let v ← datumFrom bound labels p.1 p.2
      k v) = .ok r) : Passes inside r.next := by
  obtain ⟨⟨tok, next⟩, hnext, h⟩ := bind_ok h
  obtain ⟨v, hv, h⟩ := bind_ok h
  rw [hk v h]
  exact hd (nextToken_eq_ok hnext) hv

theorem datumPasses_succ (hd : DatumPasses bound) (hl : ListCloses bound)
    (hi : ItemsClose bound) : DatumPasses (bound + 1) := by
  rintro c ⟨lex, start, stop⟩ inside labels r htok h
  have htakes : Takes c lex start inside := ⟨stop, htok⟩
  have atom : ∀ {v : Value}, lex.datum? = some v → Passes c r.next := by
    intro v hv
    rw [atom_reads hv] at h
    cases h
    exact htakes.passes hv
  cases lex with
  | atom text escaped =>
    cases hv : atomValue text escaped with
    | error f =>
      simp only [datumFrom, hv] at h
      cases h
    | ok v => exact atom (v := v) (by simp only [Lexeme.datum?, hv]; rfl)
  | string text => exact atom rfl
  | char code => exact atom rfl
  | number n => exact atom rfl
  | sugar mark =>
    simp only [datumFrom] at h
    exact htakes.passes_mark rfl (passes_inner hd (fun v hk => by cases hk; rfl) h)
  | boolVector mark =>
    simp only [datumFrom] at h
    refine htakes.passes_mark rfl (passes_inner hd (fun v hk => ?_) h)
    split at hk <;> cases hk
    rfl
  | labelDef label =>
    simp only [datumFrom] at h
    exact htakes.passes_mark rfl (passes_inner hd (fun v hk => by cases hk; rfl) h)
  | labelRef label =>
    simp only [datumFrom] at h
    split at h <;> cases h
    exact htakes.passes_ref
  | opener o =>
    refine htakes.passes_opener ?_
    cases o with
    | list =>
      simp only [datumFrom] at h
      exact hl h
    | properties =>
      simp only [datumFrom] at h
      obtain ⟨v, hv, h⟩ := bind_ok h
      split at h <;> cases h
      exact hi hv
    | _ =>
      simp only [datumFrom] at h
      obtain ⟨v, hv, h⟩ := bind_ok h
      cases h
      exact hi hv
  | _ =>
    simp only [datumFrom] at h
    cases h

theorem reading_passes (bound : Nat) :
    DatumPasses bound ∧ ListCloses bound ∧ ItemsClose bound := by
  induction bound with
  | zero =>
    refine ⟨fun _ _ _ _ _ _ h => ?_, fun _ _ _ _ _ h => ?_, fun _ _ _ _ _ _ h => ?_⟩
    · rw [datumFrom] at h
      cases h
    · rw [listFrom] at h
      cases h
    · rw [itemsFrom] at h
      cases h
  | succ bound ih =>
    obtain ⟨hd, hl, hi⟩ := ih
    exact ⟨datumPasses_succ hd hl hi, listCloses_succ hd hl, itemsClose_succ hd hi⟩

/-- Wherever a datum can be read, stepping over it ends where reading it ends. -/
theorem skipDatum_of_datum {text : List Char} {pos size : Nat} {v : Value} {next : Cursor}
    (h : datum size (Cursor.of text pos) = .ok (v, next)) :
    skipDatum (Cursor.of text pos) = .ok next := by
  obtain ⟨⟨tok, inside⟩, htok, h⟩ := bind_ok h
  obtain ⟨r, hr, h⟩ := bind_ok h
  have hpass := (reading_passes _).1 (nextToken_eq_ok htok) hr
  cases h
  exact hpass _ 0

/-- A list with a label, a table of characters and a dotted tail, behind a quote. -/
def labelledText : List Char :=
  "x '(#1=(a . \")\") #1# #^[?\\) #&3\"y\"] . #s(r #(\"[\" 0 1 nil))) )".toList

theorem labelledText_skipped : ∃ v next, datum labelledText.length (Cursor.of labelledText 1) =
    .ok (v, next) ∧ next.pos = 59 ∧ skipDatum (Cursor.of labelledText 1) = .ok next := by
  have hpos : (datum labelledText.length (Cursor.of labelledText 1)).toOption.map (·.2.pos) =
      some 59 := by
    decide +kernel
  cases hread : datum labelledText.length (Cursor.of labelledText 1) with
  | error f =>
    rw [hread] at hpos
    cases hpos
  | ok r =>
    rw [hread] at hpos
    exact ⟨r.1, r.2, rfl, Option.some.inj hpos, skipDatum_of_datum hread⟩

end PatternLint.Reader
