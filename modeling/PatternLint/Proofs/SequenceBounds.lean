import PatternLint.Proofs.GrowingPrimitives

/-! How long the values are that primitives give for values of bounded length. Most primitives
look at the length of what they build; where one does not, only the value itself may be too
long, and no part of it. -/

namespace PatternLint.Primitive

open Value (Bounded)

variable {args items : List Value} {v : Value} {A : Value → Prop}

section Arguments

variable {f : Value → Except Fault Value}

theorem returns_unary (hf : ∀ a, Returns A (f a)) : Returns A (unary f args) := by
  unfold unary
  split
  · exact hf _
  · exact .error

theorem returns_unaryOr {g : Value → Value → Except Fault Value} (hg : ∀ a b, Returns A (g a b)) :
    Returns A (unaryOr g args) := by
  unfold unaryOr
  split
  · exact hg _ _
  · exact hg _ _
  · exact .error

theorem returns_ternary {g : Value → Value → Value → Except Fault Value}
    (hg : ∀ a b c, Returns A (g a b c)) : Returns A (ternary g args) := by
  unfold ternary
  split
  · exact hg _ _ _
  · exact .error

end Arguments

/-- The value itself may be too long. -/
def PartsBounded (v : Value) : Prop :=
  ∀ part ∈ v.parts, part.Bounded

theorem partsBounded_ofChars (cs : List Char) : PartsBounded (.ofChars cs) :=
  List.forall_mem_nil _

theorem partsBounded_int (n : Int) : PartsBounded (.int n) :=
  List.forall_mem_nil _

theorem partsBounded_ofList (h : ∀ v ∈ items, v.Bounded) : PartsBounded (.ofList items) := by
  cases items with
  | nil => exact List.forall_mem_nil _
  | cons v rest => exact h

theorem partsBounded_prepend (h : ∀ v ∈ items, v.Bounded) (hv : v.Bounded) :
    PartsBounded (.prepend items v) := by
  have hatom : PartsBounded (if items.isEmpty then v else .dotted items v) := by
    split
    · exact hv.part
    · exact List.forall_mem_cons.2 ⟨hv, h⟩
  cases v with
  | nil => exact partsBounded_ofList h
  | list more => exact partsBounded_ofList (append_closed h hv.part)
  | dotted more tail =>
    obtain ⟨htail, hmore⟩ := List.forall_mem_cons.1 hv.part
    rw [Value.prepend]
    split
    · exact partsBounded_ofList (append_closed h hmore)
    · exact List.forall_mem_cons.2 ⟨htail, append_closed h hmore⟩
  | _ => exact hatom

/-- A primitive makes values that are too long, out of parts that are not. -/
structure Grows (f : Primitive) : Prop where
  exceeds : f.Exceeds
  parts : ∀ args, (∀ a ∈ args, a.Bounded) → Returns PartsBounded (f args)

/-- Texts and characters have no parts. -/
theorem Grows.ofTexts {f : Primitive} (h : f.Exceeds) (hf : ∀ args, Returns PartsBounded (f args)) :
    Grows f :=
  ⟨h, fun args _ => hf args⟩

theorem grows_cons : Grows cons where
  exceeds := cons_exceeds
  parts args ha := by
    intro v hv
    obtain ⟨head, tail, rfl, hv⟩ := binary_ok hv
    obtain rfl := Except.ok.inj hv
    simp only [List.forall_mem_cons] at ha
    exact partsBounded_prepend (List.forall_mem_singleton.2 ha.1) ha.2.1

theorem grows_append : Grows append where
  exceeds := append_exceeds
  parts args ha := by
    unfold append
    split
    · exact .ret (List.forall_mem_nil _)
    · rename_i tail htail
      have htail := ha tail (List.mem_of_getLast? htail)
      have hseqs := Returns.mapM (fun v hv => ha v (List.dropLast_subset _ hv))
        fun x (hx : x.Bounded) => Bounded.closed.asSequence hx
      refine hseqs.bind fun seqs hseqs => ?_
      have hitems : ∀ v ∈ seqs.flatten, v.Bounded := by
        intro v hv
        obtain ⟨items, hi, hv⟩ := List.mem_flatten.1 hv
        exact hseqs items hi v hv
      have hbounded : ∀ v : Value, v.Bounded → PartsBounded v := fun v hv => hv.part
      dsimp only
      split
      · exact (Bounded.closed.ofItems hitems).mono hbounded
      · exact (Bounded.closed.ofItems (append_closed hitems htail.part)).mono hbounded
      · exact .ret (partsBounded_prepend hitems htail)

theorem grows_vector : Grows fun args => .ok (.vec args) :=
  ⟨vector_exceeds, fun _ ha => .ok ha⟩

theorem grows_string : Grows string :=
  .ofTexts string_exceeds fun _ => .after fun _ => .ret (partsBounded_ofChars _)

theorem grows_mapText {f : List Char → List Char} (h : (mapText f).Exceeds) : Grows (mapText f) :=
  .ofTexts h fun _ => returns_unary fun _ => .after fun _ => .ret (partsBounded_ofChars _)

theorem grows_mapCase {f : List Char → List Char} (h : (mapCase f).Exceeds) :
    Grows (mapCase f) := by
  refine .ofTexts h fun _ => returns_unary fun a => ?_
  split
  · refine .after fun c => ?_
    split
    · exact .ret (partsBounded_int _)
    · exact .ret (partsBounded_int _)
  · exact .after fun _ => .ret (partsBounded_ofChars _)

theorem grows_joinTexts : Grows (unaryOr joinTexts) := by
  refine .ofTexts joinTexts_exceeds fun _ => returns_unaryOr fun texts sep => ?_
  have hjoin : ∀ sep : List Char, Returns PartsBounded (do
      return .ofChars (Text.join sep (← (← texts.asList).mapM Value.asChars))) :=
    fun sep => .after fun _ => .after fun _ => .ret (partsBounded_ofChars _)
  exact .ite (fun _ => .after hjoin) fun _ => .after hjoin

theorem grows_replaceText : Grows (ternary replaceText) := by
  refine .ofTexts replaceText_exceeds fun _ => returns_ternary fun old new whole => ?_
  refine .after fun p => .ite (fun _ => .error) fun _ => ?_
  exact .after fun _ => .after fun _ => .ret (partsBounded_ofChars _)

theorem grows_symbolName : Grows (unary symbolName) := by
  refine .ofTexts symbolName_exceeds fun _ => returns_unary fun v => ?_
  refine .ite (fun _ => .ok (List.forall_mem_nil _)) fun _ => ?_
  split
  · exact .ok (List.forall_mem_nil _)
  · exact .error

theorem grows_charset : Grows (unary charset) :=
  .ofTexts charset_exceeds fun _ => returns_unary fun _ => .after fun _ => .after fun _ =>
    .after fun _ => .ret (partsBounded_ofChars _)

theorem grows_alternatives : Grows alternatives := by
  refine .ofTexts alternatives_exceeds fun _ => .ite (fun _ => .error) fun _ => ?_
  split
  · exact .after fun _ => .after fun _ => .after fun _ => .ret (partsBounded_ofChars _)
  · exact .error

theorem growing_grows : ∀ name ∈ growing, ∃ f, named? name = some f ∧ Grows f := by
  simp only [growing, List.forall_mem_cons]
  exact ⟨⟨_, rfl, grows_cons⟩, ⟨_, rfl, grows_append⟩, ⟨_, rfl, grows_append⟩,
    ⟨_, rfl, grows_vector⟩, ⟨_, rfl, grows_string⟩, ⟨_, rfl, grows_mapCase upper_exceeds⟩,
    ⟨_, rfl, grows_mapCase lower_exceeds⟩, ⟨_, rfl, grows_mapCase capitalize_exceeds⟩,
    ⟨_, rfl, grows_joinTexts⟩, ⟨_, rfl, grows_replaceText⟩, ⟨_, rfl, grows_symbolName⟩,
    ⟨_, rfl, grows_mapText quote_exceeds⟩, ⟨_, rfl, grows_charset⟩, ⟨_, rfl, grows_alternatives⟩,
    ⟨_, rfl, grows_mapText wildcard_exceeds⟩, List.forall_mem_nil _⟩

/-- For values of bounded length a primitive gives a value of bounded length, or it is one of the
growing primitives and only the value itself is too long. The growing primitives do give values that
are too long. -/
theorem named_bounded {name : String} {f : Primitive} (h : named? name = some f) :
    (∀ args v, (∀ a ∈ args, a.Bounded) → f args = .ok v →
      v.Bounded ∨ name ∈ growing ∧ maxLength < v.extent ∧ ∀ part ∈ v.parts, part.Bounded) ∧
    (name ∈ growing →
      ∃ args v, (∀ a ∈ args, a.Bounded) ∧ f args = .ok v ∧ maxLength < v.extent) := by
  have hgrows : name ∈ growing → Grows f := by
    intro hname
    obtain ⟨g, hg, hgrows⟩ := growing_grows name hname
    obtain rfl := Option.some.inj (h.symm.trans hg)
    exact hgrows
  refine ⟨fun args v ha hv => ?_, fun hname => (hgrows hname).exceeds⟩
  by_cases hname : name ∈ growing
  · have hparts := (hgrows hname).parts args ha v hv
    by_cases hlen : v.extent ≤ maxLength
    · exact .inl ⟨hlen, hparts⟩
    · exact .inr ⟨hname, Nat.lt_of_not_le hlen, hparts⟩
  · exact .inl (keeps_named Bounded.closed h (fun hg => absurd hg hname) args ha v hv)

theorem named_bounded_reverse : (∀ a ∈ [Value.str "ab"], a.Bounded) ∧ (Value.str "ba").Bounded := by
  have harg : ∀ a ∈ [Value.str "ab"], a.Bounded :=
    List.forall_mem_singleton.2 (.str (by decide))
  have hreverse : named? "reverse" = some (unary reverse) := rfl
  have hrun : unary reverse [.str "ab"] = .ok (.str "ba") := rfl
  refine ⟨harg, ((named_bounded hreverse).1 _ _ harg hrun).resolve_right ?_⟩
  rintro ⟨hgrowing, -⟩
  exact absurd hgrowing (by decide)

/-- A text of the greatest length that replaces each of two letters gives one
that is twice as long. -/
theorem replacedLetters_exceed : ¬ ∀ name f args v, named? name = some f →
    (∀ a ∈ args, a.Bounded) → f args = .ok v → v.Bounded := by
  intro hall
  obtain ⟨args, v, ha, hv, hlen⟩ := replaceText_exceeds
  have hnamed : named? "string-replace" = some (ternary replaceText) := rfl
  exact absurd (hall _ _ args v hnamed ha hv).length (Nat.not_le_of_lt hlen)

end PatternLint.Primitive
